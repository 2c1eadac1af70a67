import SegmentFit.Proofs.SearchTrace
import SegmentFit.Proofs.Solve

/-!
# Receipts of a pair — the answer, certified sweep by sweep

The oracle is asked by the search alone, and leaves a receipt each time. `Grid.asking` is the
oracle as such an action: a search that asks it keeps the receipts that a solve records beside
its probes, one for each probe and in their order (`run_largestAsking_asking`).

`Certifies` is what those receipts say of an answer without the search that asked for them. No
list of receipts certifies two answers (`Certifies.unique`).
-/

namespace SegmentFit

namespace Grid

variable (g : Grid)

/-! ## The oracle as an action -/

/-- The oracle, which leaves a receipt whenever it is asked. -/
def asking (size : Nat) : StateT (List SweepReceipt) (Except SweepFault) Bool := do
  let receipt ← (g.sweepReceipt size : Except SweepFault SweepReceipt)
  Search.keep receipt
  return receipt.accepted

theorem exists_largestPair_traces :
    ∃ search, g.largestPair = .ok search
      ∧ Search.largest g.accepts g.side = .ok search
      ∧ search.probes = Search.trace g.accepts g.side
      ∧ search.Traces g.accepts g.side := by
  have hrefused : g.accepts (g.side + 1) = false :=
    g.accepts_eq_false_of_side_lt (Nat.lt_succ_self _)
  obtain ⟨search, hlargest, hprobes, htraces⟩ :=
    Search.exists_traces g.side_pos g.side_bound hrefused
  exact ⟨search, congrArg (Except.mapError SolveFault.search) hlargest, hlargest, hprobes, htraces⟩

/-- `receiptAt` is the oracle: the receipt that it leaves for each threshold. -/
def LeavesReceipts (receiptAt : Nat → SweepReceipt) : Prop :=
  ∀ k : Nat, g.sweepReceipt k = .ok (receiptAt k) ∧ (receiptAt k).threshold = k
    ∧ (receiptAt k).accepted = g.accepts k

theorem exists_leavesReceipts : ∃ receiptAt, g.LeavesReceipts receiptAt := by
  choose receiptAt hreceipts using g.exists_sweepReceipt
  exact ⟨receiptAt, hreceipts⟩

variable {g} {receiptAt : Nat → SweepReceipt} {search : SearchReceipt}

theorem Records.eq_map {sweeps : List SweepReceipt} (hrecords : g.Records search sweeps)
    (h : g.LeavesReceipts receiptAt) : sweeps = search.probes.map fun p => receiptAt p.size := by
  have hsame : List.Forall₂ (fun p r => receiptAt p.size = r) search.probes sweeps :=
    hrecords.imp fun p r hr => Except.ok.inj ((h p.size).1.symm.trans hr.1)
  have heq := List.forall₂_map_left_iff.mpr hsame
  rw [List.forall₂_eq_eq_eq] at heq
  exact heq.symm

/-- A search that asks the oracle keeps the receipt of each of its probes. -/
theorem run_largestAsking_asking (h : g.LeavesReceipts receiptAt)
    (hlargest : Search.largest g.accepts g.side = .ok search)
    (hprobes : search.probes = Search.trace g.accepts g.side) :
    (Search.largestAsking g.asking g.side).run []
      = .ok (.ok search, search.probes.map fun p => receiptAt p.size) := by
  have hasking : g.asking = fun size => do
      Search.keep (receiptAt size)
      return g.accepts size := by
    funext size
    rw [asking, (h size).1, ← (h size).2.2]
    rfl
  have hrefused : ¬ g.accepts (g.side + 1) = true := by
    rw [g.accepts_eq_false_of_side_lt (Nat.lt_succ_self _)]
    exact Bool.false_ne_true
  have hquestions : Search.questions g.accepts g.side = search.probes.map Probe.size := by
    rw [Search.questions, if_neg hrefused, hprobes]
  rw [hasking, Search.largestAsking_eq _ g.side_pos, StateT.run_bind, Search.run_forM_keep,
    List.nil_append, hquestions, List.map_map, hlargest]
  rfl

end Grid

/-! ## Certificates -/

/-- What receipts of sweeps say of an answer, on a grid of a given side. -/
structure Certifies (side k : Nat) (receipts : List SweepReceipt) : Prop where
  /-- The size beyond the side comes first and is refused. -/
  first : ∃ r rest, receipts = r :: rest ∧ r.threshold = side + 1 ∧ r.accepted = false
  /-- The next size was asked for, and nothing was found. -/
  refused : ∃ r ∈ receipts, r.threshold = k + 1 ∧ r.accepted = false
    ∧ r.finding.map Finding.certificate = none
  /-- The answer was asked for and has a certificate, unless nothing has to fit. -/
  accepted : 0 < k → ∃ r ∈ receipts, r.threshold = k ∧ r.accepted = true
    ∧ ∃ why, r.finding.map Finding.certificate = some why
  sides : ∀ r ∈ receipts,
    (r.threshold ≤ k → r.accepted = true) ∧ (k < r.threshold → r.accepted = false)

namespace Certifies

variable {side side' k k' : Nat} {receipts : List SweepReceipt}

theorem le (h : Certifies side k receipts) (h' : Certifies side' k' receipts) : k' ≤ k := by
  obtain ⟨r, hr, hthreshold, hrefused, -⟩ := h.refused
  by_contra hlt
  have hle : r.threshold ≤ k' := by omega
  have haccepted := (h'.sides r hr).1 hle
  rw [hrefused] at haccepted
  exact Bool.false_ne_true haccepted

/-- Receipts certify one answer at the most. -/
theorem unique (h : Certifies side k receipts) (h' : Certifies side' k' receipts) : k = k' :=
  Nat.le_antisymm (h'.le h) (h.le h')

end Certifies

namespace Grid

variable {g : Grid} {receiptAt : Nat → SweepReceipt} {search : SearchReceipt}

/-- The receipts of the probes of a search certify its answer. -/
theorem certifies_of_traces (h : g.LeavesReceipts receiptAt)
    (htraces : search.Traces g.accepts g.side) :
    Certifies g.side search.lo (search.probes.map fun p => receiptAt p.size) := by
  have hmem {p : Probe} (hp : p ∈ search.probes) :
      receiptAt p.size ∈ search.probes.map fun p => receiptAt p.size :=
    List.mem_map.mpr ⟨p, hp, rfl⟩
  have haccepted {p : Probe} (hp : p ∈ search.probes) :
      (receiptAt p.size).accepted = p.accepted := by
    rw [(h p.size).2.2, htraces.answers p hp]
  exact
    { first := by
        obtain ⟨rest, hprobes⟩ := List.head?_eq_some_iff.mp htraces.first
        have hfirst : (⟨g.side + 1, false⟩ : Probe) ∈ search.probes := by
          rw [hprobes]
          exact List.mem_cons_self
        refine ⟨receiptAt (g.side + 1), rest.map fun p => receiptAt p.size, ?_, (h _).2.1,
          haccepted hfirst⟩
        rw [hprobes, List.map_cons]
      refused := by
        have hrefused := haccepted htraces.refused
        refine ⟨_, hmem htraces.refused, (h _).2.1, hrefused, ?_⟩
        -- no certificate, as nothing was found
        rw [SweepReceipt.accepted, Option.isSome_eq_false_iff,
          Option.isNone_iff_eq_none] at hrefused
        rw [hrefused]
        rfl
      accepted := by
        intro hpos
        have hprobe := htraces.accepted.resolve_left (Nat.ne_of_gt hpos)
        have hyes := haccepted hprobe
        refine ⟨_, hmem hprobe, (h _).2.1, hyes, ?_⟩
        obtain ⟨found, hfound⟩ := Option.isSome_iff_exists.mp hyes
        exact ⟨found.certificate, congrArg (Option.map Finding.certificate) hfound⟩
      sides := by
        intro r hr
        obtain ⟨p, hp, rfl⟩ := List.mem_map.mp hr
        have hside := htraces.sides p hp
        rw [(h p.size).2.1, haccepted hp]
        refine ⟨hside.mpr, fun hlt => ?_⟩
        rw [Bool.eq_false_iff]
        exact fun hyes => Nat.not_le.mpr hlt (hside.mp hyes) }

/-- **The receipts of a pair certify its answer.** They are those that the search left behind
when it asked the oracle, one for each probe, in their order, with its size and its answer; and
they certify the answer of the solve and no other. -/
theorem pair_receipts_certify (g : Grid) (mode : Int) (hmode : mode ≠ Case.lineMode) :
    ∃ sections search sweeps, g.sections mode = .ok sections
      ∧ sections.stage = .pair search sweeps
      ∧ (Search.largestAsking g.asking g.side).run [] = .ok (.ok search, sweeps)
      ∧ List.Forall₂ (fun p r => g.sweepReceipt p.size = .ok r ∧ r.threshold = p.size
          ∧ r.accepted = p.accepted) search.probes sweeps
      ∧ Certifies g.side sections.stage.answer sweeps
      ∧ ∀ k, Certifies g.side k sweeps → k = sections.stage.answer := by
  obtain ⟨receiptAt, hreceipts⟩ := g.exists_leavesReceipts
  obtain ⟨search, hpair, hlargest, hprobes, htraces⟩ := g.exists_largestPair_traces
  obtain ⟨sweeps, hstage, hrecords⟩ := g.stage_pair hmode hpair
  obtain ⟨grid, hsections⟩ := g.sections_eq hstage
  obtain rfl := hrecords.eq_map hreceipts
  have hcertifies := certifies_of_traces hreceipts htraces
  refine ⟨_, search, _, hsections, rfl, run_largestAsking_asking hreceipts hlargest hprobes, ?_,
    hcertifies, fun k hk => hk.unique hcertifies⟩
  rw [List.forall₂_map_right_iff, List.forall₂_same]
  intro p hp
  refine ⟨(hreceipts p.size).1, (hreceipts p.size).2.1, ?_⟩
  rw [(hreceipts p.size).2.2, htraces.answers p hp]

theorem pair_receipts_certify_tee :
    (2 : Int) ≠ Case.lineMode
      ∧ ∃ sections search sweeps, tee.sections 2 = .ok sections
          ∧ sections.stage = .pair search sweeps
          ∧ Certifies tee.side sections.stage.answer sweeps := by
  have hmode : (2 : Int) ≠ Case.lineMode := by decide
  obtain ⟨sections, search, sweeps, hsections, hstage, -, -, hcertifies, -⟩ :=
    tee.pair_receipts_certify 2 hmode
  exact ⟨hmode, sections, search, sweeps, hsections, hstage, hcertifies⟩

end Grid

end SegmentFit
