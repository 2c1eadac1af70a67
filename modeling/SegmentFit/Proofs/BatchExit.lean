import Mathlib.Control.Monad.Basic
import SegmentFit.Command.Batch
import SegmentFit.Proofs.WrittenRecords

/-!
# The exit code of a batch — which verdicts it tells of

The exit code counts a verdict as a failure unless it is a pass or says that the two runs of a
case were made on different machines (`Batch.exitCode_eq_zero_iff`). So a batch of which some
case was run on two machines may end with exit code `0`, though that case does not pass.

It cannot if all runs come from one machine (`Runner.OnMachine`): no case file is judged to have
been run on two then (`judgeFile_onMachine`), and so no verdict of the batch is of that kind
(`judgeFiles_ne_machinesDiffer`). The solver's own runs are of one machine, so of a batch that
it solves the exit code tells whether every case passes (`exitCode_eq_zero_iff_of_solver`).

`Session.Completes` says what batch a line of the command leads to. Only a line that leads to
one ends with an exit code of its own, that of the batch (`batch_done_iff`).
-/

namespace SegmentFit

/-! ## Exit codes -/

theorem Verdict.fails_iff (v : Verdict) :
    (v.name = "NONDETERMINISTIC_EXECUTION" ∨ v.name = "ERROR" ∨ v.name = "FAIL")
      ↔ ¬ (v.passes = true ∨ v = .machinesDiffer) := by
  cases v <;> simp [name, passes]

namespace Batch

variable (b : Batch)

theorem hasVerdict_iff (name : String) :
    b.hasVerdict name = true ↔ ∃ r ∈ b.records, r.verdict.name = name := by
  simp [hasVerdict]

theorem exitCode_eq_zero_or_one : b.exitCode = 0 ∨ b.exitCode = 1 := by
  rw [exitCode]
  by_cases hfails : (b.isUnstable || b.isFaulty) = true
  · rw [if_pos hfails]
    exact Or.inr rfl
  · rw [if_neg hfails]
    exact Or.inl rfl

/-- A batch has a failure if some verdict is neither a pass nor tells of different machines. -/
theorem fails_iff :
    (b.isUnstable || b.isFaulty) = true
      ↔ ∃ r ∈ b.records, ¬ (r.passes = true ∨ r.verdict = .machinesDiffer) := by
  rw [Bool.or_eq_true, isUnstable, isFaulty, Bool.or_eq_true, hasVerdict_iff, hasVerdict_iff,
    hasVerdict_iff]
  constructor
  · rintro (⟨r, hr, hname⟩ | ⟨r, hr, hname⟩ | ⟨r, hr, hname⟩)
    · exact ⟨r, hr, r.verdict.fails_iff.mp (Or.inl hname)⟩
    · exact ⟨r, hr, r.verdict.fails_iff.mp (Or.inr (Or.inl hname))⟩
    · exact ⟨r, hr, r.verdict.fails_iff.mp (Or.inr (Or.inr hname))⟩
  · rintro ⟨r, hr, hfails⟩
    rcases r.verdict.fails_iff.mpr hfails with hname | hname | hname
    · exact Or.inl ⟨r, hr, hname⟩
    · exact Or.inr (Or.inl ⟨r, hr, hname⟩)
    · exact Or.inr (Or.inr ⟨r, hr, hname⟩)

/-- The exit code is `0` exactly if every record passes or was run on two machines. -/
theorem exitCode_eq_zero_iff :
    b.exitCode = 0 ↔ ∀ r ∈ b.records, r.passes = true ∨ r.verdict = .machinesDiffer := by
  rw [exitCode]
  by_cases hfails : (b.isUnstable || b.isFaulty) = true
  · rw [if_pos hfails]
    obtain ⟨r, hr, hno⟩ := b.fails_iff.mp hfails
    exact iff_of_false Nat.one_ne_zero fun hall => hno (hall r hr)
  · rw [if_neg hfails]
    refine iff_of_true rfl fun r hr => ?_
    exact Decidable.byContradiction fun hno => hfails (b.fails_iff.mpr ⟨r, hr, hno⟩)

end Batch

/-! ## Runs on one machine -/

/-- All runs of a source are made on one machine. -/
def Runner.OnMachine (machine : Fingerprint) : Runner → Prop
  | .solver _ here => here = machine
  | .given attempts => ∀ outcome, .ok outcome ∈ attempts → outcome.machine = machine

/-- Two runs of a case on one machine, unless they were stopped. -/
def RunPair.OnMachine (machine : Fingerprint) : RunPair → Prop
  | .stopped _ => True
  | .finished first second => first.machine = machine ∧ second.machine = machine

theorem Verdict.ofAnswer_ne_machinesDiffer (found : Int) (expected : Option Int) :
    Verdict.ofAnswer found expected ≠ .machinesDiffer := by
  cases expected with
  | none => exact nofun
  | some n =>
      rw [ofAnswer]
      split
      · exact nofun
      · exact nofun

/-- Runs on one machine have a verdict of another kind. -/
theorem RunPair.OnMachine.verdict_ne {machine : Fingerprint} {runs : RunPair}
    (h : runs.OnMachine machine) (expected : Option Int) :
    runs.verdict expected ≠ .machinesDiffer := by
  cases runs with
  | stopped reason => exact nofun
  | finished first second =>
      obtain ⟨hfirst, hsecond⟩ := h
      have hsame : ¬ first.machine ≠ second.machine := fun hne => hne (hfirst.trans hsecond.symm)
      rw [RunPair.verdict, if_neg hsame]
      split
      · exact nofun
      · split
        · exact nofun
        · exact Verdict.ofAnswer_ne_machinesDiffer first.answer expected

/-- Neither is the one that is recorded of them. -/
theorem Verdict.recorded_ne_machinesDiffer {v : Verdict} (h : v ≠ .machinesDiffer)
    (limit : DigitLimit) : v.recorded limit ≠ .machinesDiffer := by
  rcases v.recorded_eq_or limit with heq | heq
  · rw [heq]
    exact h
  · rw [heq]
    exact nofun

theorem Case.attempt_machine {c : Case} {check : Bool} {machine : Fingerprint} {outcome : Outcome}
    (h : c.attempt check machine = .ok outcome) : outcome.machine = machine := by
  rw [attempt] at h
  split at h
  · rw [← Except.ok.inj h]
    rfl
  · cases h

/-- A source of runs on one machine gives no other ones. -/
theorem Runner.OnMachine.gives {machine : Fingerprint} {runner : Runner}
    (h : runner.OnMachine machine) : runner.Gives fun o => o.machine = machine := by
  cases runner with
  | given attempts => exact h
  | solver check here =>
      intro c o hattempt
      have hhere : here = machine := h
      exact (Case.attempt_machine hattempt).trans hhere

namespace FileTree

variable (t : FileTree) (directory : String) {machine : Fingerprint}

/-- A case file leaves no record of runs on two machines, if the runs are of one. -/
theorem judgeFile_onMachine (file : String) {runner : Runner}
    (h : runner.Gives fun o => o.machine = machine) :
    (t.judgeFile directory file runner).1.verdict ≠ .machinesDiffer
      ∧ (t.judgeFile directory file runner).2.Gives fun o => o.machine = machine := by
  rw [judgeFile]
  split
  · exact ⟨Verdict.noConfusion, h⟩
  · next c expected _ =>
    obtain ⟨hruns, hrest⟩ := Runner.twice_gives h c
    have hone : (runner.twice c).1.OnMachine machine := hruns
    exact ⟨Verdict.recorded_ne_machinesDiffer (hone.verdict_ne expected) _, hrest⟩

/-- On one machine no case of a directory is judged to have been run on two. -/
theorem judgeFiles_ne_machinesDiffer {runner : Runner} (h : runner.OnMachine machine)
    (failFast : Bool) (files : List String) :
    ∀ r ∈ t.judgeFiles directory failFast files runner, r.verdict ≠ .machinesDiffer :=
  t.judgeFiles_forall directory (fun file _ => t.judgeFile_onMachine directory file) failFast files
    h.gives

end FileTree

/-! ## The command -/

namespace Session

variable (s : Session)

/-- The cases of a directory were judged, and the run ended with their results written. -/
def Judges (runner : Runner) (failFast : Bool) (directory path : String) (b : Batch) : Prop :=
  (s.tree.runBatch (PathText.tidy directory) (PathText.tidy path) failFast runner).result = .ok b

/-- What a line of the command comes to: a batch that was judged, and its results written. -/
def Completes (runner : Bool → Runner) (line : List String) (b : Batch) : Prop :=
  ∃ words directory path,
    batchForm.parse line = .run words
      ∧ words.settings.lookup "cases" = some (some directory)
      ∧ (words.settings.lookup "output").getD (some defaultResults) = some path
      ∧ s.Judges (runner (words.has "self-check")) (words.has "fail-fast") directory path b

variable {s}

/-- A batch whose runs are of one machine has no record of runs on two. -/
theorem Completes.ne_machinesDiffer {runner : Bool → Runner} {line : List String} {b : Batch}
    (h : s.Completes runner line b) {machine : Fingerprint}
    (hmachine : ∀ check, (runner check).OnMachine machine) :
    ∀ r ∈ b.records, r.verdict ≠ .machinesDiffer := by
  obtain ⟨words, directory, path, -, -, -, hjudges⟩ := h
  obtain ⟨hjudge, -, -⟩ := FileTree.result_runBatch_eq_ok_iff.mp hjudges
  rw [FileTree.judgeAll, map_eq_ok_iff] at hjudge
  obtain ⟨files, -, rfl⟩ := hjudge
  exact s.tree.judgeFiles_ne_machinesDiffer _ (hmachine _) _ files

/-- **On one machine the exit code is `0` exactly if every case passes.** -/
theorem Completes.exitCode_eq_zero_iff {runner : Bool → Runner} {line : List String} {b : Batch}
    (h : s.Completes runner line b) {machine : Fingerprint}
    (hmachine : ∀ check, (runner check).OnMachine machine) :
    b.exitCode = 0 ↔ ∀ r ∈ b.records, r.passes = true := by
  have hsame := h.ne_machinesDiffer hmachine
  rw [b.exitCode_eq_zero_iff]
  constructor
  · exact fun hall r hr => (hall r hr).resolve_right (hsame r hr)
  · exact fun hall r hr => Or.inl (hall r hr)

variable (s)

theorem solver_onMachine (check : Bool) : (s.solver check).OnMachine s.machine :=
  rfl

/-- When the cases are solved, the exit code tells whether every one passes. -/
theorem exitCode_eq_zero_iff_of_solver {line : List String} {b : Batch}
    (h : s.Completes s.solver line b) : b.exitCode = 0 ↔ ∀ r ∈ b.records, r.passes = true :=
  h.exitCode_eq_zero_iff s.solver_onMachine

/-- The command ends with an exit code of its own exactly if the run ended, with that of its
batch. -/
theorem judgeDirectory_done_iff (runner : Runner) (failFast : Bool) (directory path : String)
    (code : Nat) :
    (s.judgeDirectory runner failFast directory path).ending = .done code
      ↔ ∃ b, s.Judges runner failFast directory path b ∧ b.exitCode = code := by
  unfold judgeDirectory Judges
  dsimp only
  cases hresult : (s.tree.runBatch (PathText.tidy directory) (PathText.tidy path) failFast
      runner).result with
  | error fault =>
      refine iff_of_false nofun ?_
      rintro ⟨b, hb, -⟩
      exact nomatch hb
  | ok batch =>
      constructor
      · intro h
        exact ⟨batch, rfl, Ending.done.inj h⟩
      · rintro ⟨b, hb, rfl⟩
        rw [Except.ok.inj hb]

/-- Whether a line leads to a batch depends on the paths that it gives. -/
theorem completes_iff {runner : Bool → Runner} {line : List String} {words : CommandWords}
    (hparse : batchForm.parse line = .run words) (b : Batch) :
    s.Completes runner line b
      ↔ ∃ directory path, words.settings.lookup "cases" = some (some directory)
          ∧ (words.settings.lookup "output").getD (some defaultResults) = some path
          ∧ s.Judges (runner (words.has "self-check")) (words.has "fail-fast") directory path
              b := by
  constructor
  · rintro ⟨words', directory, path, hwords, hrest⟩
    obtain rfl : words = words' := CommandCall.run.inj (hparse.symm.trans hwords)
    exact ⟨directory, path, hrest⟩
  · rintro ⟨directory, path, hrest⟩
    exact ⟨words, directory, path, hparse, hrest⟩

/-- **The command ends with an exit code** exactly if a batch completes, with that of its batch. -/
theorem batch_done_iff (runner : Bool → Runner) (line : List String) (code : Nat) :
    (s.batch runner line).ending = .done code
      ↔ ∃ b, s.Completes runner line b ∧ b.exitCode = code := by
  rw [batch]
  cases hparse : batchForm.parse line with
  | help =>
      refine iff_of_false nofun ?_
      rintro ⟨b, ⟨words, _, _, hwords, _⟩, _⟩
      exact nomatch hparse.symm.trans hwords
  | rejected =>
      refine iff_of_false nofun ?_
      rintro ⟨b, ⟨words, _, _, hwords, _⟩, _⟩
      exact nomatch hparse.symm.trans hwords
  | run words =>
      simp only [s.completes_iff hparse]
      split
      · next hcases =>
        refine iff_of_false nofun ?_
        rintro ⟨b, ⟨directory, path, hdirectory, -⟩, -⟩
        exact nomatch hcases.symm.trans hdirectory
      · next directory path hcases houtput =>
        rw [judgeDirectory_done_iff]
        constructor
        · rintro ⟨b, hjudges, hcode⟩
          exact ⟨b, ⟨directory, path, hcases, houtput, hjudges⟩, hcode⟩
        · rintro ⟨b, ⟨directory', path', hdirectory, hpath, hjudges⟩, hcode⟩
          obtain rfl : directory = directory' :=
            Option.some.inj (Option.some.inj (hcases.symm.trans hdirectory))
          obtain rfl : path = path' := Option.some.inj (houtput.symm.trans hpath)
          exact ⟨b, hjudges, hcode⟩
      · next hother =>
        -- one of the two paths has no value
        refine iff_of_false nofun ?_
        rintro ⟨b, ⟨directory, path, hdirectory, hpath, -⟩, -⟩
        exact hother directory path hdirectory hpath

/-- The command ends with an exit code exactly if a batch was judged and its results written.
The code is `0` or `1`, and `0` exactly if every record passes or was run on two machines. With
runs of one machine it is `0` exactly if every record passes. -/
theorem batch_exit_exact (runner : Bool → Runner) (line : List String) :
    (∀ code, (s.batch runner line).ending = .done code
        ↔ ∃ b, s.Completes runner line b ∧ b.exitCode = code)
      ∧ ∀ b, s.Completes runner line b →
          (b.exitCode = 0 ∨ b.exitCode = 1)
            ∧ (b.exitCode = 0 ↔ ∀ r ∈ b.records, r.passes = true ∨ r.verdict = .machinesDiffer)
            ∧ ((∃ machine, ∀ check, (runner check).OnMachine machine) →
                (b.exitCode = 0 ↔ ∀ r ∈ b.records, r.passes = true)) := by
  refine ⟨s.batch_done_iff runner line, fun b hcompletes => ?_⟩
  refine ⟨b.exitCode_eq_zero_or_one, b.exitCode_eq_zero_iff, ?_⟩
  rintro ⟨machine, hmachine⟩
  exact hcompletes.exitCode_eq_zero_iff hmachine

/-- The tree of a directory with one case. -/
def oneCase : FileTree :=
  .directory [("c", .directory [("a.in", .file [49, 32, 50, 10, 46, 10])])]

def outcomeOn (platform : String) : Outcome :=
  ⟨1, "pair", [("grid", "00")], "11", ⟨[("platform", platform)]⟩⟩

/-- One case, run on two machines with the same outcome: the exit code is `0`, though the record
does not pass. -/
theorem batch_exit_two_machines :
    let s : Session := ⟨oneCase, [], none, ⟨[]⟩⟩
    let runner : Bool → Runner := fun _ => .given [.ok (outcomeOn "Linux"), .ok (outcomeOn "Mac")]
    ∃ b, s.Completes runner ["--cases", "c"] b
      ∧ (s.batch runner ["--cases", "c"]).ending = .done 0
      ∧ ∃ r ∈ b.records, r.passes = false := by
  intro s runner
  let r : CaseRecord := .judged "a" 1 none (.finished (outcomeOn "Linux") (outcomeOn "Mac"))
  let b : Batch := ⟨1, false, [r]⟩
  have hparse : batchForm.parse ["--cases", "c"] = .run ⟨[], [("cases", some "c")], none⟩ := by
    decide +kernel
  have hjudges : s.Judges (runner false) false "c" defaultResults b := by
    show (s.tree.runBatch _ _ _ _).result = _
    decide +kernel
  have hcompletes : s.Completes runner ["--cases", "c"] b :=
    ⟨_, "c", defaultResults, hparse, by decide, by decide, hjudges⟩
  have hcode : b.exitCode = 0 := by
    decide +kernel
  refine ⟨b, hcompletes, (s.batch_done_iff runner _ 0).mpr ⟨b, hcompletes, hcode⟩, r, ?_, ?_⟩
  · exact List.mem_singleton.mpr rfl
  · decide +kernel

end Session

end SegmentFit
