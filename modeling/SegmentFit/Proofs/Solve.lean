import SegmentFit.Proofs.Longest
import SegmentFit.Proofs.Poses
import SegmentFit.Proofs.RaisedFaults
import SegmentFit.Proofs.Results
import SegmentFit.Proofs.Search
import SegmentFit.Proofs.SweepReceipt
import SegmentFit.Solve

/-!
# Solving — every case has an answer, in every pose the same

For either mode the answer is the greatest length that fits (`exists_answer`): of a single
segment by the longest run, of a pair because the oracle is exact, accepts whatever is
shorter than an accepted length, and refuses what is longer than the side. No stage is ever
refused, so a solve always has its sections (`exists_sections`).

What fits does not depend on the pose, and neither does the answer (`answer_posed`): a
symmetry check compares it with itself and can only fail for another number, in the first
pose that is compared (`checkSymmetry_eq`).
-/

namespace SegmentFit

namespace Grid

variable (g : Grid)

/-! ## Answers -/

/-- The lengths that fit, of one segment or of each of a pair, as the mode asks. -/
def FitsMode (mode : Int) (k : Nat) : Prop :=
  if mode = Case.lineMode then g.FitsOne k else g.FitsPair k

/-- In the mode of lines, what fits is one segment. -/
theorem fitsMode_line (k : Nat) : g.FitsMode Case.lineMode k ↔ g.FitsOne k :=
  iff_of_eq (if_pos rfl)

/-- In any other mode, what fits is a pair of segments. -/
theorem fitsMode_pair {mode : Int} (hmode : mode ≠ Case.lineMode) (k : Nat) :
    g.FitsMode mode k ↔ g.FitsPair k :=
  iff_of_eq (if_neg hmode)

variable {g} in
/-- Nothing fits that is longer than the side. -/
theorem FitsMode.le_side {mode : Int} {k : Nat} (h : g.FitsMode mode k) : k ≤ g.side := by
  by_cases hmode : mode = Case.lineMode
  · rw [hmode, fitsMode_line] at h
    exact h.le_side
  · rw [g.fitsMode_pair hmode] at h
    exact h.fitsOne.le_side

/-- The sizes that a solve asks for are far below every limit on digits. -/
theorem lt_of_le_next {n : Nat} (h : n ≤ g.side + 1) : n < 2 ^ 128 := by
  have hbound : g.side + 1 < 2 ^ 63 := g.side_bound
  omega

/-- A segment that fits has no more cells than a line. -/
theorem lt_of_fits {mode : Int} {k : Nat} (h : g.FitsMode mode k) : k < 2 ^ 128 :=
  g.lt_of_le_next (Nat.le_succ_of_le h.le_side)

/-- A threshold beyond the side is not accepted. -/
theorem accepts_eq_false_of_side_lt {k : Nat} (hk : g.side < k) : g.accepts k = false := by
  rw [Bool.eq_false_iff]
  intro haccepts
  have hle := ((g.accepts_iff k).mp haccepts).fitsOne.le_side
  omega

/-- The oracle accepts every threshold below an accepted one. -/
theorem accepts_pred {k : Nat} (h : g.accepts (k + 1) = true) : g.accepts k = true := by
  rw [accepts_iff] at *
  exact h.mono (Nat.le_succ k)

/-- What is admitted to a search are the lengths of the pairs that fit. -/
theorem admitted_accepts : Search.admitted g.accepts g.side = {k | g.FitsPair k} := by
  ext k
  constructor
  · rintro ⟨-, rfl | haccepts⟩
    · exact g.fitsPair_zero
    · exact (g.accepts_iff k).mp haccepts
  · intro hpair
    exact ⟨FitsOne.le_side (FitsPair.fitsOne hpair), Or.inr ((g.accepts_iff k).mpr hpair)⟩

/-- **The search finds the largest pair.** -/
theorem exists_largestPair :
    ∃ search, g.largestPair = .ok search ∧ IsGreatest {k | g.FitsPair k} search.lo
      ∧ (∀ p ∈ search.probes, 0 < p.size ∧ p.size ≤ g.side + 1 ∧ p.accepted = g.accepts p.size)
      ∧ search.probes.length ≤ Nat.clog 2 (g.side + 1) + 1 := by
  have hrefused : g.accepts (g.side + 1) = false :=
    g.accepts_eq_false_of_side_lt (Nat.lt_succ_self _)
  have hgreatest := Search.isGreatest_lo_bisect hrefused fun _ _ => g.accepts_pred
  rw [admitted_accepts] at hgreatest
  have hnarrows := Search.bisect_narrows g.accepts 0 (g.side + 1) (Nat.succ_pos _)
  have hlog := Search.length_probes_bisect_le g.accepts 0 (g.side + 1)
  obtain ⟨_, -, hlargest⟩ := Search.largest_eq g.side_pos g.side_bound hrefused
  refine ⟨_, congrArg (Except.mapError SolveFault.search) hlargest, hgreatest, ?_, ?_⟩
  · intro p hp
    rcases List.mem_cons.mp hp with rfl | hrest
    · exact ⟨Nat.succ_pos _, Nat.le_refl _, hrefused.symm⟩
    · obtain ⟨hlo, hhi⟩ := hnarrows.inside p hrest
      exact ⟨hlo, Nat.le_of_lt hhi, hnarrows.answers p hrest⟩
  · exact Nat.succ_le_succ hlog

/-- **Every mode has an answer**, the greatest length that fits. -/
theorem exists_answer (mode : Int) :
    ∃ k, g.answer mode = .ok k ∧ IsGreatest {j | g.FitsMode mode j} k := by
  by_cases hmode : mode = Case.lineMode
  · refine ⟨g.lineReceipt.best, if_pos hmode, ?_⟩
    simp only [hmode, fitsMode_line]
    exact g.isGreatest_best
  · obtain ⟨search, hsearch, hgreatest, -⟩ := g.exists_largestPair
    refine ⟨search.lo, ?_, ?_⟩
    · rw [answer, if_neg hmode, hsearch]
      rfl
    · simp only [fitsMode_pair g hmode]
      exact hgreatest

/-- The answer is the greatest length that fits. -/
theorem isGreatest_answer {mode : Int} {k : Nat} (h : g.answer mode = .ok k) :
    IsGreatest {j | g.FitsMode mode j} k := by
  obtain ⟨k', hk', hgreatest⟩ := g.exists_answer mode
  obtain rfl : k' = k := Except.ok.inj (hk'.symm.trans h)
  exact hgreatest

/-! ## Sections -/

/-- The receipts of the sweeps are kept in the order of the probes that asked for them. -/
def Records (search : SearchReceipt) (sweeps : List SweepReceipt) : Prop :=
  List.Forall₂ (fun p r => g.sweepReceipt p.size = .ok r ∧ r.accepted = g.accepts p.size)
    search.probes sweeps

/-- Every probe of a search leaves the receipt of a sweep. -/
theorem exists_records (search : SearchReceipt) :
    ∃ sweeps, (search.probes.mapM fun p => g.sweepReceipt p.size) = .ok sweeps
      ∧ g.Records search sweeps := by
  refine exists_mapM_ok fun p => ?_
  obtain ⟨r, hr, -, haccepted⟩ := g.exists_sweepReceipt p.size
  exact ⟨r, hr, hr, haccepted⟩

/-- The stage of a pair is the search with a sweep for each probe. -/
theorem stage_pair {mode : Int} (hmode : mode ≠ Case.lineMode) {search : SearchReceipt}
    (hsearch : g.largestPair = .ok search) :
    ∃ sweeps, g.stage mode = .ok (.pair search sweeps) ∧ g.Records search sweeps := by
  obtain ⟨sweeps, hsweeps, hrecords⟩ := g.exists_records search
  refine ⟨sweeps, ?_, hrecords⟩
  rw [stage, if_neg hmode, hsearch]
  show ((search.probes.mapM fun p => g.sweepReceipt p.size).mapError SolveFault.sweep >>= _) = _
  rw [hsweeps]
  rfl

/-- **Every mode has a stage**, and the answer stands in its receipt. -/
theorem exists_stage (mode : Int) :
    ∃ stage, g.stage mode = .ok stage ∧ g.answer mode = .ok stage.answer := by
  by_cases hmode : mode = Case.lineMode
  · exact ⟨_, if_pos hmode, if_pos hmode⟩
  · obtain ⟨search, hsearch, -⟩ := g.exists_largestPair
    obtain ⟨sweeps, hstage, -⟩ := g.stage_pair hmode hsearch
    refine ⟨_, hstage, ?_⟩
    rw [answer, if_neg hmode, hsearch]
    rfl

theorem openCount_le : g.openCount ≤ g.side * g.side := by
  have hrows : ∀ row ∈ g.cells.toLists, row.length = g.side := by
    intro row hrow
    obtain ⟨v, -, rfl⟩ := List.mem_map.mp hrow
    exact v.length_toList
  have hlength : g.cells.toLists.flatten.length = g.side * g.side := by
    have hcount : g.cells.toLists.length = g.side := by
      rw [Table.toLists, List.length_map, Vector.length_toList]
    rw [List.length_flatten, List.map_eq_replicate_iff.mpr hrows, List.sum_replicate_nat, hcount]
  rw [openCount, ← hlength]
  exact List.count_le_length

/-- The cells of a grid can be hashed. -/
theorem exists_tensor_digest : ∃ digest, g.tensor.digest? = .ok digest := by
  have hside : g.side < Varint.limit := Nat.lt_of_succ_lt g.side_bound
  refine Table.digest?_tensor_isOk (by decide) (fun i j => ?_) hside hside
  cases g.cells.entry i j <;> decide

/-- Every grid has a receipt. -/
theorem exists_receipt : ∃ receipt, g.receipt = .ok receipt := by
  obtain ⟨digest, hdigest⟩ := g.exists_tensor_digest
  rw [receipt, hdigest]
  exact ⟨_, rfl⟩

/-- A stage has its sections, with the receipt of the grid before it and no check behind it. -/
theorem sections_eq {mode : Int} {stage : Stage} (hstage : g.stage mode = .ok stage) :
    ∃ grid, g.sections mode = .ok ⟨grid, stage, false⟩ := by
  obtain ⟨receipt, hreceipt⟩ := g.exists_receipt
  refine ⟨receipt, ?_⟩
  rw [sections, hreceipt, hstage]
  rfl

/-- **Every solve has its sections**, and they have the answer. -/
theorem exists_sections (mode : Int) :
    ∃ s, g.sections mode = .ok s ∧ s.checked = false ∧ g.answer mode = .ok s.stage.answer := by
  obtain ⟨stage, hstage, hanswer⟩ := g.exists_stage mode
  obtain ⟨grid, hsections⟩ := g.sections_eq hstage
  exact ⟨_, hsections, rfl, hanswer⟩

/-- The answer of a solve is the greatest length that fits. -/
theorem exists_sections_greatest (mode : Int) :
    ∃ s, g.sections mode = .ok s ∧ IsGreatest {j | g.FitsMode mode j} s.stage.answer := by
  obtain ⟨s, hsections, -, hanswer⟩ := g.exists_sections mode
  exact ⟨s, hsections, g.isGreatest_answer hanswer⟩

/-- **The answer for a pair** is the greatest length of two disjoint segments that fit, and
what asking for every length from `0` on would find. The search asks for few lengths, never
for `0`, and keeps a receipt of each. -/
theorem pair_answer_exact (mode : Int) (hmode : mode ≠ Case.lineMode) :
    ∃ sections search sweeps, g.sections mode = .ok sections
      ∧ sections.stage = .pair search sweeps
      ∧ IsGreatest {k | k ≤ g.side ∧ g.FitsPair k} sections.stage.answer
      ∧ (sections.stage.answer = 0 ↔ ∀ k, 0 < k → ¬ g.FitsPair k)
      ∧ sections.stage.answer = Search.scanLargest g.accepts g.side
      ∧ (∀ k : Nat, g.feasible k = .ok (g.accepts k))
      ∧ (∀ p ∈ search.probes,
          0 < p.size ∧ p.size ≤ g.side + 1 ∧ g.feasible p.size = .ok p.accepted)
      ∧ search.probes.length ≤ Nat.clog 2 (g.side + 1) + 1
      ∧ g.Records search sweeps := by
  obtain ⟨search, hsearch, hgreatest, hprobes, hfew⟩ := g.exists_largestPair
  obtain ⟨sweeps, hstage, hrecords⟩ := g.stage_pair hmode hsearch
  obtain ⟨grid, hsections⟩ := g.sections_eq hstage
  have hscan := Search.isGreatest_scanLargest g.accepts g.side
  rw [admitted_accepts] at hscan
  -- no pair is longer than the side, so the bound leaves none out
  have hbounded : {k | k ≤ g.side ∧ g.FitsPair k} = {k | g.FitsPair k} := by
    ext k
    exact and_iff_right_of_imp fun hpair => FitsOne.le_side (FitsPair.fitsOne hpair)
  refine ⟨_, search, sweeps, hsections, rfl, ?_, ?_, hgreatest.unique hscan,
    g.feasible_natCast, ?_, hfew, hrecords⟩
  · rw [hbounded]
    exact hgreatest
  · constructor
    · intro hzero k hk hpair
      have hle : k ≤ search.lo := hgreatest.2 hpair
      have hlo : search.lo = 0 := hzero
      omega
    · intro hnone
      by_contra hpos
      exact hnone search.lo (Nat.pos_of_ne_zero hpos) hgreatest.1
  · intro p hp
    obtain ⟨hlo, hhi, haccepted⟩ := hprobes p hp
    rw [g.feasible_natCast, haccepted]
    exact ⟨hlo, hhi, rfl⟩

/-- The largest pair in the tee, by search and by scan. -/
theorem pair_answer_exact_tee :
    (2 : Int) ≠ Case.lineMode
      ∧ ∃ sections, tee.sections 2 = .ok sections
          ∧ sections.stage.answer = Search.scanLargest tee.accepts tee.side := by
  obtain ⟨sections, _, _, hsections, -, -, -, hscan, -⟩ := tee.pair_answer_exact 2 (by decide)
  exact ⟨by decide, sections, hsections, hscan⟩

/-! ## Poses -/

/-- What fits does not depend on the pose. -/
theorem fitsMode_posed (p : Pose) (mode : Int) (k : Nat) :
    (g.posed p).FitsMode mode k ↔ g.FitsMode mode k := by
  by_cases hmode : mode = Case.lineMode
  · rw [hmode, fitsMode_line, fitsMode_line]
    exact (g.alike_posed p).fitsOne_iff k
  · rw [fitsMode_pair _ hmode, fitsMode_pair _ hmode]
    exact (g.alike_posed p).fitsPair_iff k

/-- **The answer is the same in every pose.** -/
theorem answer_posed (p : Pose) (mode : Int) : (g.posed p).answer mode = g.answer mode := by
  obtain ⟨k, hk, hgreatest⟩ := g.exists_answer mode
  obtain ⟨k', hk', hgreatest'⟩ := (g.posed p).exists_answer mode
  have hset : {j | (g.posed p).FitsMode mode j} = {j | g.FitsMode mode j} :=
    Set.ext (g.fitsMode_posed p mode)
  rw [hset] at hgreatest'
  rw [hk, hk', hgreatest.unique hgreatest']

/-- A symmetry check is passed by the answer alone, and any other number fails it in the
first pose that is compared. -/
theorem checkSymmetry_eq {mode : Int} {k : Nat} (hanswer : g.answer mode = .ok k) (given : Int) :
    g.checkSymmetry mode given
      = if (k : Int) = given then .ok () else .error (.symmetry 1 k given) := by
  have hpose (p : Pose) : ((g.posed p).answer mode >>= fun found =>
        if (found : Int) = given then .ok () else .error (.symmetry p.number found given))
      = if (k : Int) = given then .ok () else .error (.symmetry p.number k given) := by
    rw [answer_posed, hanswer]
    rfl
  by_cases hgiven : (k : Int) = given
  · rw [if_pos hgiven]
    refine forM_ok fun p _ => ?_
    exact (hpose p).trans (if_pos hgiven)
  · -- the first pose that is compared is a quarter turn
    rw [if_neg hgiven]
    exact forM_error ((hpose ⟨false, 1⟩).trans (if_neg hgiven))

end Grid

namespace Case

variable (c : Case)

/-- A case whose sections are known is solved with these, and the check adds itself to them. -/
theorem solve_eq {s : Sections} (hsections : c.grid.sections c.mode = .ok s)
    (hanswer : c.grid.answer c.mode = .ok s.stage.answer) (check : Bool) :
    c.solve check
      = .ok ⟨modeName c.mode, c.grid.side, s.stage.answer, { s with checked := check }⟩ := by
  rw [solve, hsections]
  cases check with
  | false => rfl
  | true =>
      have hcheck := c.grid.checkSymmetry_eq hanswer s.stage.answer
      rw [if_pos rfl] at hcheck
      show (c.grid.checkSymmetry c.mode s.stage.answer >>= _) = _
      rw [hcheck]
      rfl

/-- Every case is solved, with the check and without it, and the answer is the greatest length
that fits. -/
theorem exists_solution :
    ∃ s, c.grid.sections c.mode = .ok s ∧ IsGreatest {j | c.grid.FitsMode c.mode j} s.stage.answer
      ∧ ∀ check, c.solve check
          = .ok ⟨modeName c.mode, c.grid.side, s.stage.answer, { s with checked := check }⟩ := by
  obtain ⟨s, hsections, -, hanswer⟩ := c.grid.exists_sections c.mode
  exact ⟨s, hsections, c.grid.isGreatest_answer hanswer, c.solve_eq hsections hanswer⟩

end Case

end SegmentFit
