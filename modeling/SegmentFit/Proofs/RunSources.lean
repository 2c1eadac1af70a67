import SegmentFit.Batch

/-!
# Sources of runs — what holds of every run of a batch

A source gives runs with some property (`Runner.Gives`), whichever cases they are asked for. Two
runs that are taken from it have the property, and the source still gives such runs
(`Runner.twice_gives`). What one case file keeps of the source, and what it makes true of its
record, hold of all records of a batch (`FileTree.judgeFiles_forall`), whether it stops early or
not.
-/

namespace SegmentFit

variable {P : Outcome → Prop}

/-- Every run that a source gives has a property. -/
def Runner.Gives (P : Outcome → Prop) : Runner → Prop
  | .solver check machine => ∀ (c : Case) (o : Outcome), c.attempt check machine = .ok o → P o
  | .given attempts => ∀ o, .ok o ∈ attempts → P o

/-- Both runs of a pair have a property, unless they were stopped. -/
def RunPair.Both (P : Outcome → Prop) : RunPair → Prop
  | .stopped _ => True
  | .finished first second => P first ∧ P second

/-- Taking two runs from a list leaves the others. -/
theorem RunPair.take_both {attempts : List Attempt} (h : ∀ o, .ok o ∈ attempts → P o) :
    (take attempts).1.Both P ∧ ∀ o, .ok o ∈ (take attempts).2 → P o := by
  match attempts, h with
  | [], _ => exact ⟨trivial, nofun⟩
  | [.ok _], _ => exact ⟨trivial, nofun⟩
  | .error reason :: rest, h => exact ⟨trivial, fun o hmem => h o (List.mem_cons_of_mem _ hmem)⟩
  | .ok first :: .error reason :: rest, h =>
      refine ⟨trivial, fun o hmem => h o ?_⟩
      exact List.mem_cons_of_mem _ (List.mem_cons_of_mem _ hmem)
  | .ok first :: .ok second :: rest, h =>
      refine ⟨⟨h first List.mem_cons_self, h second ?_⟩, fun o hmem => h o ?_⟩
      · exact List.mem_cons_of_mem _ List.mem_cons_self
      · exact List.mem_cons_of_mem _ (List.mem_cons_of_mem _ hmem)

/-- **Taking two runs** leaves a source that gives such runs. -/
theorem Runner.twice_gives {runner : Runner} (h : runner.Gives P) (c : Case) :
    (runner.twice c).1.Both P ∧ (runner.twice c).2.Gives P := by
  cases runner with
  | given attempts => exact RunPair.take_both h
  | solver check machine =>
      refine ⟨(RunPair.take_both fun o hmem => h c o ?_).1, h⟩
      rcases List.mem_cons.mp hmem with hfirst | hmore
      · exact hfirst.symm
      · exact (List.mem_singleton.mp hmore).symm

/-- The outcomes that a record is made from have a property, if there are any. -/
def CaseRecord.Both (P : Outcome → Prop) (r : CaseRecord) : Prop :=
  ∀ first second, r.outcomes? = some (first, second) → P first ∧ P second

theorem CaseRecord.Both.judged {name : String} {side : Nat} {expected : Option Int}
    {runs : RunPair} (h : runs.Both P) : (CaseRecord.judged name side expected runs).Both P := by
  intro first second houtcomes
  cases runs with
  | stopped reason => exact nomatch houtcomes
  | finished o o' =>
      obtain ⟨rfl, rfl⟩ := Prod.mk.inj (Option.some.inj houtcomes)
      exact h

namespace FileTree

variable (t : FileTree) (directory : String)

/-- A case file leaves a record of the runs that it takes, and a source that gives such runs. -/
theorem judgeFile_both (file : String) {runner : Runner} (h : runner.Gives P) :
    (t.judgeFile directory file runner).1.Both P
      ∧ (t.judgeFile directory file runner).2.Gives P := by
  rw [judgeFile]
  cases t.loadTask directory file with
  | error fault => exact ⟨nofun, h⟩
  | ok task =>
      obtain ⟨hruns, hrest⟩ := Runner.twice_gives h task.1
      exact ⟨.judged hruns, hrest⟩

/-- The records of a batch, one case file after the other. -/
theorem judgeFiles_cons (failFast : Bool) (file : String) (rest : List String) (runner : Runner) :
    t.judgeFiles directory failFast (file :: rest) runner
      = (t.judgeFile directory file runner).1 ::
          (if failFast && !(t.judgeFile directory file runner).1.passes then []
            else t.judgeFiles directory failFast rest (t.judgeFile directory file runner).2) :=
  rfl

/-- **What every case file keeps** of the source of runs holds throughout a batch. -/
theorem judgeFiles_forall {Q : CaseRecord → Prop} {I : Runner → Prop}
    (hstep : ∀ file runner, I runner →
      Q (t.judgeFile directory file runner).1 ∧ I (t.judgeFile directory file runner).2)
    (failFast : Bool) (files : List String) {runner : Runner} (h : I runner) :
    ∀ r ∈ t.judgeFiles directory failFast files runner, Q r := by
  induction files generalizing runner with
  | nil => exact nofun
  | cons file rest ih =>
      obtain ⟨hrecord, hrunner⟩ := hstep file runner h
      rw [judgeFiles_cons]
      refine List.forall_mem_cons.mpr ⟨hrecord, ?_⟩
      split
      · exact nofun
      · exact ih hrunner

end FileTree

end SegmentFit
