import SegmentFit.Solve

/-!
# Verdicts — is a case solved the same way twice?

A case is run twice, and the two outcomes are compared: first the machines they were
found on, then the hashes of their sections, then the hash of all sections and the
answer. Two runs that agree pass if their answer is the expected one, or if none is
expected. A run that is stopped ends the comparison, and the second run is not made if
the first one was stopped.

The verdict carries its reason: its text is there exactly when a case does not pass. A
reason that shows an integer too long to be written is not recorded; that refusal is, as
an error.
-/

namespace SegmentFit

/-- What a finished run shows. -/
structure Outcome where
  answer : Int
  mode : String
  digests : List (String × String)
  tableDigest : String
  machine : Fingerprint
  deriving DecidableEq, Repr

/-- A run: its outcome, or the text of what stopped it. -/
abbrev Attempt := Except String Outcome

def Solution.outcome (machine : Fingerprint) (s : Solution) : Outcome :=
  ⟨s.answer, s.mode, s.digests, s.tableDigest, machine⟩

def Case.attempt (c : Case) (check : Bool) (machine : Fingerprint) : Attempt :=
  match c.solve check with
  | .ok solution => .ok (solution.outcome machine)
  | .error fault => .error (DigitLimit.standard.raised fault).message

/-- Two runs of one case. -/
inductive RunPair where
  | stopped (reason : String)
  | finished (first second : Outcome)
  deriving DecidableEq, Repr

/-- The first two runs of a list, and those that are left. A run that is stopped stands
for both; so does one that is missing. -/
def RunPair.take : List Attempt → RunPair × List Attempt
  | .error reason :: rest => (.stopped reason, rest)
  | .ok _ :: .error reason :: rest => (.stopped reason, rest)
  | .ok first :: .ok second :: rest => (.finished first second, rest)
  | _ => (.stopped "", [])

/-- Where runs come from. -/
inductive Runner where
  | solver (check : Bool) (machine : Fingerprint)
  -- given runs, used in turn
  | given (attempts : List Attempt)

def Runner.twice (c : Case) : Runner → RunPair × Runner
  | .solver check machine =>
    let attempt := c.attempt check machine
    ((RunPair.take [attempt, attempt]).1, .solver check machine)
  | .given attempts =>
    let (pair, rest) := RunPair.take attempts
    (pair, .given rest)

/-! ## Comparing -/

/-- Whether two tables of hashes have the same names with the same hashes, in any order. -/
def sameDigests (first second : List (String × String)) : Bool :=
  first.length == second.length
    && first.all fun (name, digest) => second.lookup name == some digest

/-- The names of the first table that have another hash, or none, in the second. -/
def changedDigests (first second : List (String × String)) : List String :=
  (first.filter fun (name, digest) => second.lookup name != some digest).map fun entry => entry.1

/-- What two runs of a case come to. -/
inductive Verdict where
  | pass
  | wrongAnswer (found expected : Int)
  | machinesDiffer
  -- some section of the first run has another hash in the second
  | sectionsDiffer (names : List String)
  -- the hash of all sections or the answer differs
  | resultsDiffer (first second : Int)
  | error (reason : String)
  deriving DecidableEq, Repr

namespace Verdict

def name : Verdict → String
  | .pass => "PASS"
  | .wrongAnswer _ _ => "FAIL"
  | .machinesDiffer => "NONDETERMINISTIC_ENV"
  | .sectionsDiffer _ => "NONDETERMINISTIC_EXECUTION"
  | .resultsDiffer _ _ => "NONDETERMINISTIC_EXECUTION"
  | .error _ => "ERROR"

def reason? : Verdict → Option String
  | .pass => none
  | .wrongAnswer found expected => some s!"Answer {found} does not match oracle {expected}"
  | .machinesDiffer => some "Environment fingerprints differ between runs"
  | .sectionsDiffer names =>
    some ("Section hashes differ between runs: " ++ Text.quotedList (names.map CodeText.ofString))
  | .resultsDiffer first second =>
    some s!"Table hash or answer differs between runs ({first} vs {second})"
  | .error reason => some reason

/-- The integers that the reason shows. -/
def numbers : Verdict → List Int
  | .wrongAnswer found expected => [found, expected]
  | .resultsDiffer first second => [first, second]
  | .pass | .machinesDiffer | .sectionsDiffer _ | .error _ => []

/-- What is recorded of a verdict: an error, if its reason shows an integer that cannot be
written. -/
def recorded (limit : DigitLimit) (v : Verdict) : Verdict :=
  if v.numbers.all limit.allows then v else .error limit.message

def passes (v : Verdict) : Bool :=
  v == .pass

def ofAnswer (found : Int) : Option Int → Verdict
  | none => .pass
  | some expected => if found = expected then .pass else .wrongAnswer found expected

end Verdict

/-- The verdict on two runs, given the expected answer if there is one. -/
def RunPair.verdict (expected : Option Int) : RunPair → Verdict
  | .stopped reason => .error reason
  | .finished first second =>
    if first.machine ≠ second.machine then .machinesDiffer
    else if !sameDigests first.digests second.digests then
      .sectionsDiffer (changedDigests first.digests second.digests)
    else if first.tableDigest ≠ second.tableDigest ∨ first.answer ≠ second.answer then
      .resultsDiffer first.answer second.answer
    else .ofAnswer first.answer expected

end SegmentFit
