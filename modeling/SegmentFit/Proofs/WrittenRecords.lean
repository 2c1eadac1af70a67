import Mathlib.Data.List.TakeWhile
import SegmentFit.Proofs.CaseFiles
import SegmentFit.Proofs.ReceiptFiles
import SegmentFit.Proofs.RunSources

/-!
# Written records — which batches end with a summary

A verdict whose reason shows an integer that is too long to be written is recorded as an error, and
any other one as it is (`Verdict.recorded_eq_or`). A batch goes on to its end exactly if its cases
are judged, every record can be written, and the file of results is saved
(`FileTree.result_runBatch_eq_ok_iff`).

A record can be written if the answers of the runs can (`FileTree.judgeFile_written`), since what
is expected of a case was read as a numeral. The solver gives such answers, because none is
greater than the side of the grid (`Runner.solver_gives_printable`).
-/

namespace SegmentFit

/-! ## Recorded verdicts -/

namespace Verdict

variable {limit : DigitLimit} {v : Verdict}

theorem recorded_of_allows (h : ∀ n ∈ v.numbers, limit.allows n = true) : v.recorded limit = v :=
  if_pos (List.all_eq_true.mpr h)

/-- A verdict is recorded as it is, or the refusal to write its reason is recorded. -/
theorem recorded_eq_or (limit : DigitLimit) (v : Verdict) :
    v.recorded limit = v ∨ v.recorded limit = .error limit.message := by
  rw [recorded]
  split
  · exact Or.inl rfl
  · exact Or.inr rfl

end Verdict

/-! ## Records that can be written -/

namespace CaseRecord

theorem isWritten_iff (r : CaseRecord) :
    r.isWritten = true ↔ ∀ n ∈ r.numbers, DigitLimit.standard.allows n = true :=
  List.all_eq_true

/-- A case that was judged can be written if its side, its answer and what is expected of it can. -/
theorem isWritten_judged_iff {name : String} {side : Nat} {expected : Option Int}
    {runs : RunPair} :
    (judged name side expected runs).isWritten = true
      ↔ DigitLimit.standard.allows side = true
        ∧ (∀ k, (judged name side expected runs).answer? = some k →
            DigitLimit.standard.allows k = true)
        ∧ ∀ n, expected = some n → DigitLimit.standard.allows n = true := by
  rw [isWritten_iff, numbers, List.forall_mem_cons, List.forall_mem_append]
  simp only [Option.mem_toList]

/-- A record that can be written can be reported. -/
theorem isReported_of_isWritten {r : CaseRecord} (h : r.isWritten = true) :
    r.isReported = true := by
  cases r with
  | unread name reason => rfl
  | judged name side expected runs =>
      obtain ⟨-, hanswer, -⟩ := isWritten_judged_iff.mp h
      rw [isReported, Bool.or_eq_true, Option.all_eq_true]
      exact Or.inr hanswer

end CaseRecord

namespace Batch

variable {b : Batch}

theorem isWritten_iff : b.isWritten = true ↔ ∀ r ∈ b.records, r.isWritten = true :=
  List.all_eq_true

theorem isReported_of_isWritten (h : b.isWritten = true) : b.isReported = true :=
  List.all_eq_true.mpr fun r hr => CaseRecord.isReported_of_isWritten (isWritten_iff.mp h r hr)

end Batch

/-! ## The run of a batch -/

namespace FileTree

variable {t tree : FileTree} {directory path : String} {failFast : Bool} {runner : Runner}
  {b : Batch}

/-- A batch that is judged, written and saved ends with itself. -/
theorem runBatch_of_isWritten (hjudge : t.judgeAll directory failFast runner = .ok b)
    (hwritten : b.isWritten = true) (hsave : t.saveTidy path b.results = .ok tree) :
    t.runBatch directory path failFast runner = ⟨b.progress, tree, .ok b⟩ := by
  rw [runBatch, hjudge]
  dsimp only
  rw [if_pos (Batch.isReported_of_isWritten hwritten), hsave]
  dsimp only
  rw [if_pos hwritten]

/-- **The run of a batch** ends with the batch exactly if its cases are judged, every record can be
written, and the file of results is saved. -/
theorem result_runBatch_eq_ok_iff :
    (t.runBatch directory path failFast runner).result = .ok b
      ↔ t.judgeAll directory failFast runner = .ok b ∧ b.isWritten = true
        ∧ ∃ tree, t.saveTidy path b.results = .ok tree := by
  constructor
  · intro h
    rw [runBatch] at h
    cases hjudge : t.judgeAll directory failFast runner with
    | error fault =>
        rw [hjudge] at h
        exact nomatch h
    | ok batch =>
        rw [hjudge] at h
        dsimp only at h
        split at h
        · cases hsave : t.saveTidy path batch.results with
          | error fault =>
              rw [hsave] at h
              exact nomatch h
          | ok tree =>
              rw [hsave] at h
              dsimp only at h
              split at h
              · next hwritten =>
                obtain rfl := Except.ok.inj h
                exact ⟨rfl, hwritten, tree, hsave⟩
              · exact nomatch h
        · exact nomatch h
  · rintro ⟨hjudge, hwritten, tree, hsave⟩
    rw [runBatch_of_isWritten hjudge hwritten hsave]

end FileTree

/-! ## Runs with short answers -/

/-- An outcome whose answer can be written. -/
def Outcome.Printable (o : Outcome) : Prop :=
  DigitLimit.standard.allows o.answer = true

/-- An answer of the solver is at most the side of the grid. -/
theorem Runner.solver_gives_printable (check : Bool) (machine : Fingerprint) :
    (Runner.solver check machine).Gives Outcome.Printable := by
  intro c o hattempt
  obtain ⟨s, -, hgreatest, hsolve⟩ := c.exists_solution
  rw [Case.attempt, hsolve] at hattempt
  obtain rfl := Except.ok.inj hattempt
  exact DigitLimit.standard.allows_of_lt (c.grid.lt_of_fits hgreatest.1)

namespace FileTree

variable {t : FileTree} {directory file path : String}

/-- An answer that was loaded has no more digits than a numeral may have. -/
theorem natAbs_lt_of_loadAnswer {n : Int} (h : t.loadAnswer path = .ok n) :
    n.natAbs < 10 ^ Numeral.digitLimit := by
  obtain ⟨text, -, hanswer⟩ := bind_eq_ok_iff.mp h
  rw [mapError_eq_ok_iff, Directory.expectedAnswer_eq_ok_iff] at hanswer
  obtain ⟨word, -, hread⟩ := hanswer
  exact Numeral.natAbs_lt_of_read hread

/-- What is expected of a case can be written: it was read as a numeral. -/
theorem allows_of_loadTask {c : Case} {expected : Option Int}
    (h : t.loadTask directory file = .ok (c, expected)) {n : Int} (hn : expected = some n) :
    DigitLimit.standard.allows n = true := by
  obtain ⟨_, -, h⟩ := bind_eq_ok_iff.mp h
  obtain ⟨found, -, h⟩ := bind_eq_ok_iff.mp h
  cases found with
  | none =>
      obtain ⟨-, rfl⟩ := Prod.mk.inj (Except.ok.inj h)
      exact nomatch hn
  | some entry =>
      obtain ⟨m, hm, h⟩ := bind_eq_ok_iff.mp h
      obtain ⟨-, rfl⟩ := Prod.mk.inj (Except.ok.inj h)
      rw [← Option.some.inj hn]
      exact DigitLimit.standard_allows_iff.mpr (natAbs_lt_of_loadAnswer hm)

/-- **A case file leaves a record that can be written**, if the runs that are left have answers
that can. -/
theorem judgeFile_written (t : FileTree) (directory file : String) {runner : Runner}
    (h : runner.Gives Outcome.Printable) :
    (t.judgeFile directory file runner).1.isWritten = true := by
  have hboth := (t.judgeFile_both directory file h).1
  rw [judgeFile] at hboth ⊢
  cases htask : t.loadTask directory file with
  | error fault => rfl
  | ok task =>
      rw [htask] at hboth
      refine CaseRecord.isWritten_judged_iff.mpr ⟨?_, fun k hk => ?_, fun n => ?_⟩
      · exact DigitLimit.standard.allows_of_lt (task.1.grid.lt_of_le_next (Nat.le_succ _))
      · obtain ⟨⟨first, second⟩, houtcomes, rfl⟩ := Option.map_eq_some_iff.mp hk
        exact (hboth first second houtcomes).1
      · exact allows_of_loadTask htask

variable {P : Outcome → Prop} {failFast : Bool} {runner : Runner} {b : Batch}

/-- What runs with some property make true of the record of any case file is true of all records of
a batch of such runs. -/
theorem judgeAll_forall {Q : CaseRecord → Prop}
    (hfile : ∀ file runner, runner.Gives P → Q (t.judgeFile directory file runner).1)
    (h : runner.Gives P) (hjudge : t.judgeAll directory failFast runner = .ok b) :
    ∀ r ∈ b.records, Q r := by
  rw [judgeAll, map_eq_ok_iff] at hjudge
  obtain ⟨files, -, rfl⟩ := hjudge
  refine t.judgeFiles_forall directory (fun file runner hrunner => ?_) failFast files h
  exact ⟨hfile file runner hrunner, (t.judgeFile_both directory file hrunner).2⟩

/-- Every record of a batch can be written if all runs have answers that can. -/
theorem isWritten_of_judgeAll (h : runner.Gives Outcome.Printable)
    (hjudge : t.judgeAll directory failFast runner = .ok b) : b.isWritten = true :=
  Batch.isWritten_iff.mpr
    (judgeAll_forall (fun file _ hrunner => t.judgeFile_written directory file hrunner) h hjudge)

end FileTree

end SegmentFit
