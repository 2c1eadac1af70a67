import SegmentFit.Command.Compare
import SegmentFit.Proofs.PairReceipts
import SegmentFit.Proofs.RecordFiles
import SegmentFit.Proofs.ReceiptComparison

/-!
# Receipts in files — a receipt that is loaded can be verified

Every number in a receipt is at most the area of the grid (`Grid.lt_of_le_area`), and lists and
objects are nested five deep in it. So a receipt is read back from the file that it was saved in.

What can be checked of a record without the solve that left it is `Verifies`: each hash is that
of the section with its name, the table is hashed, and so is the trace of a search.
-/

namespace SegmentFit

namespace Grid

variable (g : Grid) {d k : Nat}

open Json (Within)

/-! ## Numbers in receipts -/

/-- The area of a grid is far below every limit on digits. -/
theorem lt_of_le_area {n : Nat} (h : n ≤ g.side * g.side) : n < 2 ^ 128 := by
  have hside : g.side < 2 ^ 63 := Nat.lt_of_succ_lt g.side_bound
  have harea : g.side * g.side ≤ 2 ^ 63 * 2 ^ 63 :=
    Nat.mul_le_mul (Nat.le_of_lt hside) (Nat.le_of_lt hside)
  omega

/-- There are no more ends of segments than cells. -/
theorem card_ends_le (axis : Axis) : (g.ends axis k).card ≤ g.side * g.side := by
  have hcard : Fintype.card (SegmentEnd g.side) = g.side * g.side := by
    rw [Fintype.ofEquiv_card, Fintype.card_prod, Fintype.card_fin]
  rw [← hcard]
  exact Finset.card_le_univ _

variable {g}

theorem within_cell {c : Cell} (hrow : c.row < g.side) (hcol : c.col < g.side) :
    Within (d + 1) c.json := by
  have hrow' : Within d (.nat c.row) := .of_nat (g.lt_of_le_next (by omega))
  have hcol' : Within d (.nat c.col) := .of_nat (g.lt_of_le_next (by omega))
  simp [Cell.json, hrow', hcol']

theorem within_gridReceipt {r : GridReceipt} (h : g.receipt = .ok r) : Within (d + 1) r.json := by
  have hfields : r.side = g.side ∧ r.openCount = g.openCount := by
    rw [receipt] at h
    cases hdigest : g.tensor.digest? with
    | error fault =>
        rw [hdigest] at h
        cases h
    | ok digest =>
        rw [hdigest] at h
        obtain rfl := Except.ok.inj h
        exact ⟨rfl, rfl⟩
  have hside : Within d (.nat r.side) := .of_nat (g.lt_of_le_next (by omega))
  have hcount : Within d (.nat r.openCount) := by
    rw [hfields.2]
    exact .of_nat (g.lt_of_le_area g.openCount_le)
  simp [GridReceipt.json, hside, hcount]

/-- The greatest run fits on the grid, and the place that the scan keeps lies there. -/
theorem within_greatest (axis : Axis) :
    Within (d + 1) (.nat (g.runs axis).greatest.1)
      ∧ Within (d + 1) (.optional Cell.json (g.runs axis).greatest.2) := by
  have hle : (g.runs axis).greatest.1 ≤ g.side := by
    obtain ⟨p, -, hfits⟩ := (g.isGreatest_greatest_runs axis).1
    exact FitsOne.le_side ⟨p, hfits⟩
  refine ⟨.of_nat (g.lt_of_le_next (by omega)), ?_⟩
  rw [Json.Within.optional_iff]
  intro c hc
  rcases (g.runs axis).greatest_leads.first with hnone | ⟨_, x, _, -, -, hbest, -⟩
  · rw [hnone] at hc
    exact nomatch hc
  · rw [hbest] at hc
    obtain rfl := Option.some.inj hc
    exact within_cell x.1.isLt x.2.isLt

theorem within_lineReceipt : Within (d + 2) g.lineReceipt.json := by
  have hbest : Within (d + 1) (.nat g.lineReceipt.best) :=
    .of_nat (g.lt_of_le_next (Nat.le_succ_of_le (FitsOne.le_side g.isGreatest_best.1)))
  obtain ⟨hrow, hrowEnd⟩ : Within (d + 1) (.nat g.lineReceipt.bestRow)
      ∧ Within (d + 1) (.optional Cell.json g.lineReceipt.rowEnd) := g.within_greatest .rows
  obtain ⟨hcolumn, hcolumnEnd⟩ : Within (d + 1) (.nat g.lineReceipt.bestColumn)
      ∧ Within (d + 1) (.optional Cell.json g.lineReceipt.columnEnd) := g.within_greatest .columns
  simp only [LineReceipt.json, Json.Within.object_iff, List.forall_mem_cons]
  exact ⟨by simp, hbest, hrow, hcolumn, hrowEnd, hcolumnEnd, List.forall_mem_nil _⟩

/-- A receipt of a sweep, by its numbers and the place of its finding. -/
theorem within_sweepFields {threshold count : Nat} (hthreshold : threshold ≤ g.side + 1)
    (hcount : count ≤ g.side * g.side) {found : Option Finding}
    (hfound : ∀ f, found = some f → f.cell.row < g.side ∧ f.cell.col < g.side)
    (digest : Option String) :
    Within (d + 2) (SweepReceipt.json ⟨threshold, found, count, digest⟩) := by
  have hthreshold' : Within (d + 1) (.nat threshold) := .of_nat (g.lt_of_le_next hthreshold)
  have hcount' : Within (d + 1) (.nat count) := .of_nat (g.lt_of_le_area hcount)
  have hcell (f : Finding) (hf : found = some f) : Within (d + 1) f.cell.json :=
    within_cell (hfound f hf).1 (hfound f hf).2
  simp only [SweepReceipt.json, Json.Within.object_iff, List.forall_mem_cons, List.map_cons,
    List.map_nil, Json.Within.optional_iff]
  exact ⟨by simp, hthreshold', by simp, by simp, hcell, hcount', by simp⟩

theorem within_sweepReceipt (hk : 0 < k) (hle : k ≤ g.side + 1) {r : SweepReceipt}
    (h : g.sweepReceipt k = .ok r) : Within (d + 2) r.json := by
  by_cases hrows : g.FitsPairAlong .rows k
  · obtain ⟨last, -, hsweep⟩ := sweep_eq_pair hk hrows
    rw [sweepReceipt_eq_of_none hsweep] at h
    rw [← Except.ok.inj h]
    refine within_sweepFields hle ?_ ?_ none
    · exact Nat.le_trans (Finset.card_filter_le _ _) (g.card_ends_le .rows)
    · rintro f ⟨⟩
      exact ⟨last.line.isLt, last.stop.isLt⟩
  · obtain ⟨found, cover, hsweep, hcover, hsome, hnone⟩ := sweep_eq_counted hk hrows
    obtain ⟨digest, -, hdigest⟩ := exists_digest hcover
    rw [sweepReceipt_eq_of_some hsweep hdigest] at h
    rw [← Except.ok.inj h]
    refine within_sweepFields hle (g.card_ends_le .rows) ?_ (some digest)
    intro f hf
    by_cases hcolumns : ∃ e, g.ClosesColumn k e
    · obtain ⟨last, why, -, hfound, -⟩ := hsome hcolumns
      rw [hfound] at hf
      obtain rfl := Option.some.inj hf
      exact ⟨last.stop.isLt, last.line.isLt⟩
    · rw [hnone hcolumns] at hf
      exact nomatch hf

theorem within_searchReceipt {accept : Nat → Bool} {r : SearchReceipt}
    (h : r.Traces accept g.side) (hsizes : ∀ p ∈ r.probes, p.size ≤ g.side + 1) :
    Within (d + 3) r.json := by
  have hside : Within (d + 2) (.nat g.side) := .of_nat (g.lt_of_le_next (Nat.le_succ _))
  have hlo : Within (d + 2) (.nat r.lo) := .of_nat (g.lt_of_le_next (Nat.le_succ_of_le h.le_bound))
  have hhi : Within (d + 2) (.nat (r.lo + 1)) :=
    .of_nat (g.lt_of_le_next (Nat.succ_le_succ h.le_bound))
  have hprobes : Within (d + 2) (.arr (r.probes.map Probe.json)) := by
    rw [Json.Within.arr_iff, List.forall_mem_map]
    intro p hp
    have hsize : Within d (.nat p.size) := .of_nat (g.lt_of_le_next (hsizes p hp))
    simp [Probe.json, hsize]
  simp only [h.json, Json.Within.object_iff, List.forall_mem_cons]
  exact ⟨by simp, hside, hlo, hlo, hhi, hprobes, by simp⟩

/-- The receipts of a stage are read back. -/
theorem within_stage {mode : Int} {stage : Stage} (h : g.stage mode = .ok stage) :
    (∃ r, stage = .line r ∧ Within 3 r.json)
      ∨ ∃ search sweeps, stage = .pair search sweeps ∧ Within 3 search.json
        ∧ Within 3 (.arr (sweeps.map SweepReceipt.json)) := by
  by_cases hmode : mode = Case.lineMode
  · rw [Grid.stage, if_pos hmode] at h
    exact Or.inl ⟨_, (Except.ok.inj h).symm, within_lineReceipt⟩
  · obtain ⟨search, hsearch, -, hprobes, -⟩ := g.exists_largestPair
    obtain ⟨search', hsearch', -, -, htraces⟩ := g.exists_largestPair_traces
    obtain rfl : search = search' := Except.ok.inj (hsearch.symm.trans hsearch')
    obtain ⟨sweeps, hstage, hrecords⟩ := g.stage_pair hmode hsearch
    refine Or.inr ⟨search, sweeps, Except.ok.inj (h.symm.trans hstage), ?_, ?_⟩
    · exact within_searchReceipt htraces fun p hp => (hprobes p hp).2.1
    · obtain ⟨receiptAt, hreceipts⟩ := g.exists_leavesReceipts
      obtain rfl := hrecords.eq_map hreceipts
      rw [Json.Within.arr_iff, List.forall_mem_map, List.forall_mem_map]
      intro p hp
      exact within_sweepReceipt (hprobes p hp).1 (hprobes p hp).2.1 (hreceipts p.size).1

/-- The stage of a case is among its sections. -/
theorem stage_of_sections {mode : Int} {s : Sections} (h : g.sections mode = .ok s) :
    g.stage mode = .ok s.stage := by
  obtain ⟨stage, hstage, -⟩ := g.exists_stage mode
  obtain ⟨grid, hsections⟩ := g.sections_eq hstage
  obtain rfl := Except.ok.inj (hsections.symm.trans h)
  exact hstage

/-- The sections of a solve, with the symmetry check or without it. -/
theorem within_sections {mode : Int} {s : Sections} (h : g.sections mode = .ok s) (check : Bool) :
    Within 4 (.object { s with checked := check }.members) := by
  have hgrid : Within 3 s.grid.json := within_gridReceipt (receipt_of_sections h)
  have hcheck : Within 3 checkJson := by
    have hposes : Within 2 (.arr (Pose.all.map fun p => .nat p.number)) := by
      rw [Json.Within.arr_iff, List.forall_mem_map]
      intro p hp
      refine .of_nat ?_
      have hall : ∀ p ∈ Pose.all, p.number < 8 := by decide
      exact Nat.lt_trans (hall p hp) (by decide)
    simp only [checkJson, Json.Within.object_iff, List.forall_mem_cons]
    exact ⟨by simp, hposes, by simp, List.forall_mem_nil _⟩
  have hnames := Sections.distinct_members { s with checked := check }
  have hlast : ∀ m ∈ if check then [("self_check", checkJson)] else [], Within 3 m.2 := by
    cases check with
    | true => exact List.forall_mem_singleton.mpr hcheck
    | false => exact List.forall_mem_nil _
  obtain ⟨grid, stage, checked⟩ := s
  rw [Json.Within.object_iff]
  refine ⟨hnames, List.forall_mem_append.mpr ⟨List.forall_mem_cons.mpr ⟨hgrid, ?_⟩, hlast⟩⟩
  rcases within_stage (stage_of_sections h) with
    ⟨r, rfl, hline⟩ | ⟨search, sweeps, rfl, hsearch, hsweeps⟩
  · exact List.forall_mem_singleton.mpr hline
  · exact List.forall_mem_cons.mpr ⟨hsearch, List.forall_mem_singleton.mpr hsweeps⟩

end Grid

namespace Solution

open Json (Within)

variable {s : Solution} {machine : Fingerprint}

/-- A receipt is nested five deep, if its sections are four deep. -/
theorem within_receipt (hsections : Within 4 (.object s.sections.members))
    (hside : s.side < 2 ^ 128) (hanswer : s.answer < 2 ^ 128)
    (hmachine : (machine.entries.map Prod.fst).Nodup) : Within 5 (s.receipt machine) := by
  have hstrings {d : Nat} {entries : List (String × String)}
      (hnames : (entries.map Prod.fst).Nodup) :
      Within (d + 1) (.object (entries.map fun x => (x.1, .string x.2))) := by
    rw [Json.Within.object_iff, List.map_map, List.forall_mem_map]
    exact ⟨hnames, fun _ _ => .of_string _⟩
  have hdigests : (s.digests.map Prod.fst).Nodup := s.sections.distinct_digests
  have hside' : Within 3 (.nat s.side) := .of_nat hside
  have hanswer' : Within 3 (.nat s.answer) := .of_nat hanswer
  have hfinal : Within 4 (.object [("mode", .string s.mode), ("n", .nat s.side),
      ("k", .nat s.answer)]) := by
    simp [hside', hanswer']
  rw [receipt, members, Json.Within.object_iff]
  simp only [List.forall_mem_cons]
  exact ⟨by simp, hstrings hmachine, hsections, hstrings hdigests, .of_string _, hfinal,
    List.forall_mem_nil _⟩

end Solution

/-! ## What a record shows by itself -/

/-- The member of an object that is named by a string. -/
def Json.member? (name : String) : Json → Option Json
  | .obj members => lookup (CodeText.ofString name) members
  | _ => none

/-- A member of an object is what stands under its name. -/
theorem Json.member?_object (name : String) (members : List (String × Json)) :
    (object members).member? name = members.lookup name :=
  lookup_ofString name members

/-- A record that can be verified by itself, as the receipt of an answer. -/
structure Json.Verifies (record : Json) (mode : Int) (k : Nat) : Prop where
  /-- Each section has a hash under its name, which is that of the section as it is in the
  record, there are no other hashes, and the table of the hashes is hashed as well. -/
  hashes : ∃ sections digests, record.member? "sections" = some (.object sections)
    ∧ record.member? "hashes"
        = some (.object (digests.map fun (name, digest) => (name, .string digest)))
    ∧ digests.map Prod.fst = sections.map Prod.fst
    ∧ (sections.map Prod.fst).Nodup
    ∧ (∀ name v, sections.lookup name = some v → digests.lookup name = some (sectionDigest v))
    ∧ record.member? "table_hash" = some (.string (tableDigest digests))
  answer : ∃ final, record.member? "final" = some final ∧ final.member? "k" = some (.nat k)
  /-- The hash of a search is that of the probes as they are in the record. -/
  trace : mode ≠ Case.lineMode → ∃ sections search probes bytes,
    record.member? "sections" = some sections
      ∧ sections.member? "search" = some search
      ∧ search.member? "probes" = some (.arr (probes.map Probe.json))
      ∧ Probe.bytes? probes = .ok bytes
      ∧ search.member? "trace_hash" = some (.string (Blake3.hexDigest bytes))

namespace Case

variable (c : Case)

/-- A receipt can be verified by itself. -/
theorem verifies_receipt {s : Sections} (hsections : c.grid.sections c.mode = .ok s) (check : Bool)
    (mode : String) (side k : Nat) (machine : Fingerprint) :
    (Solution.receipt machine ⟨mode, side, k, { s with checked := check }⟩).Verifies c.mode k where
  hashes := by
    refine ⟨_, _, Json.member?_object _ _, Json.member?_object _ _, Sections.names_digests _,
      Sections.distinct_members _, ?_, Json.member?_object _ _⟩
    intro name v hv
    rw [Solution.digests, Sections.digests, lookup_map_snd sectionDigest, hv]
    rfl
  answer := ⟨_, Json.member?_object _ _, Json.member?_object _ _⟩
  trace := by
    intro hmode
    obtain ⟨search, hsearch, -, -, htraces⟩ := c.grid.exists_largestPair_traces
    obtain ⟨sweeps, hstage, -⟩ := c.grid.stage_pair hmode hsearch
    have heq : Stage.pair search sweeps = s.stage :=
      Except.ok.inj (hstage.symm.trans (Grid.stage_of_sections hsections))
    obtain ⟨bytes, hbytes, hdigest⟩ := htraces.digest
    have hmember : (Sections.members { s with checked := check }).lookup "search"
        = some search.json := by
      obtain ⟨grid, stage, checked⟩ := s
      obtain rfl := heq
      rfl
    refine ⟨_, search.json, search.probes, bytes, Json.member?_object _ _, ?_, ?_, hbytes, ?_⟩
    · rw [Json.member?_object, hmember]
    · rw [htraces.json]
      exact Json.member?_object _ _
    · rw [htraces.json, ← hdigest]
      exact Json.member?_object _ _

/-- **A receipt that is loaded can be verified.** Every case is solved, with the symmetry check
or without it, and wherever its receipt is saved, the record that is loaded from there shows by
itself the hashes of its sections, the answer, and the hash of the probes of a search. -/
theorem loaded_receipt_verifies (check : Bool) (machine : Fingerprint)
    (hmachine : (machine.entries.map Prod.fst).Nodup) :
    ∃ s, c.solve check = .ok s ∧ IsGreatest {j | c.grid.FitsMode c.mode j} s.answer
      ∧ ∀ (t t' : FileTree) (path : String),
          t.saveRecords path [s.receipt machine] = .ok t' →
          ∃ record, t'.loadRecords Session.nestingLimit path = .ok [record]
            ∧ record.Verifies c.mode s.answer := by
  obtain ⟨s, hsections, hgreatest, hsolve⟩ := c.exists_solution
  refine ⟨_, hsolve check, hgreatest, fun t t' path hsave => ?_⟩
  have hside : c.grid.side < 2 ^ 128 := c.grid.lt_of_le_next (Nat.le_succ _)
  have hle : s.stage.answer < 2 ^ 128 :=
    c.grid.lt_of_le_next (Nat.le_succ_of_le (Grid.FitsMode.le_side hgreatest.1))
  have hwithin := Solution.within_receipt
    (s := ⟨modeName c.mode, c.grid.side, s.stage.answer, { s with checked := check }⟩)
    (Grid.within_sections hsections check) hside hle hmachine
  refine ⟨_, FileTree.loadRecords_of_saveRecords (List.forall_mem_singleton.mpr ?_) hsave,
    c.verifies_receipt hsections check _ _ _ machine⟩
  exact hwithin.mono (by decide)

/-- The receipt of the tee is saved, loaded and verified. -/
theorem loaded_receipt_verifies_tee :
    (([("os", "linux")] : List (String × String)).map Prod.fst).Nodup
      ∧ ∃ s, (⟨Grid.tee, 2⟩ : Case).solve true = .ok s
          ∧ ∃ t', FileTree.empty.saveRecords "r" [s.receipt ⟨[("os", "linux")]⟩] = .ok t'
            ∧ ∃ record, t'.loadRecords Session.nestingLimit "r" = .ok [record]
                ∧ record.Verifies 2 s.answer := by
  have hnames : (([("os", "linux")] : List (String × String)).map Prod.fst).Nodup := by simp
  obtain ⟨s, hsolve, -, hfiles⟩ :=
    loaded_receipt_verifies ⟨Grid.tee, 2⟩ true ⟨[("os", "linux")]⟩ hnames
  have hnew : (FileTree.empty.save "r" "").isOk = true := by decide +kernel
  obtain ⟨t, hempty⟩ := exists_of_isOk hnew
  obtain ⟨t', hsave⟩ :=
    FileTree.exists_save hempty (recordLines Json.compact [s.receipt ⟨[("os", "linux")]⟩])
  exact ⟨hnames, s, hsolve, t', hsave, hfiles _ _ _ hsave⟩

end Case

end SegmentFit
