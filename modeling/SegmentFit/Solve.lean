import SegmentFit.Case
import SegmentFit.Receipt

/-!
# Solving — from a case to an answer with its receipts

For a single segment the answer is the longest run. For a pair it is found by a search
over thresholds, each put to the sweep, and every sweep's receipt is kept beside the
probe that asked for it.

An answer can be checked for symmetry: the grid is solved again in each of the other
seven poses, and the first pose with another answer is named.
-/

namespace SegmentFit

/-- Why a solve has no answer. -/
inductive SolveFault where
  | encoding (fault : EncodingFault)
  | search (fault : SearchFault)
  | sweep (fault : SweepFault)
  -- a pose of the grid has another answer
  | symmetry (pose : Nat) (found given : Int)
  deriving DecidableEq, Repr

def SolveFault.message : SolveFault → String
  | .encoding fault => fault.message
  | .search fault => fault.message
  | .sweep fault => fault.message
  | .symmetry pose found given =>
    s!"symmetry violated: pose {pose} gives k={found}, identity gives k={given}"

instance : Fault SolveFault where
  kind
    | .encoding fault => Fault.kind fault
    | .search fault => Fault.kind fault
    | .sweep fault => Fault.kind fault
    | .symmetry _ _ _ => .assertion
  numbers
    | .encoding fault => Fault.numbers fault
    | .search fault => Fault.numbers fault
    | .sweep fault => Fault.numbers fault
    | .symmetry pose found given => [pose, found, given]
  message := SolveFault.message

namespace Grid

/-- The largest size for which two disjoint segments fit, as the search finds it. -/
def largestPair (g : Grid) : Except SolveFault SearchReceipt :=
  (Search.largest g.accepts g.side).mapError .search

def answer (g : Grid) (mode : Int) : Except SolveFault Nat :=
  if mode = Case.lineMode then .ok g.lineReceipt.best
  else g.largestPair.map SearchReceipt.lo

def stage (g : Grid) (mode : Int) : Except SolveFault Stage :=
  if mode = Case.lineMode then .ok (.line g.lineReceipt)
  else do
    let search ← g.largestPair
    let sweeps ← (search.probes.mapM fun p => g.sweepReceipt p.size).mapError .sweep
    return .pair search sweeps

end Grid

/-- The answer that a stage gives. -/
def Stage.answer : Stage → Nat
  | .line receipt => receipt.best
  | .pair search _ => search.lo

namespace Grid

def sections (g : Grid) (mode : Int) : Except SolveFault Sections := do
  let grid ← g.receipt.mapError .encoding
  let stage ← g.stage mode
  return ⟨grid, stage, false⟩

/-- Compare the answer in every other pose with the one given. -/
def checkSymmetry (g : Grid) (mode given : Int) : Except SolveFault Unit :=
  (Pose.all.drop 1).forM fun p => do
    let found ← (g.posed p).answer mode
    if (found : Int) = given then return else .error (.symmetry p.number found given)

end Grid

/-- The solution of a case: its sections and what follows from them. -/
structure Solution where
  mode : String
  side : Nat
  answer : Nat
  sections : Sections
  deriving DecidableEq, Repr

def Solution.digests (s : Solution) : List (String × String) :=
  s.sections.digests

def Solution.tableDigest (s : Solution) : String :=
  SegmentFit.tableDigest s.digests

/-- The members of a solution's receipt that do not depend on the machine. -/
def Solution.members (s : Solution) : List (String × Json) :=
  [("sections", .object s.sections.members),
   ("hashes", .object (s.digests.map fun (name, digest) => (name, .string digest))),
   ("table_hash", .string s.tableDigest),
   ("final", .object [("mode", .string s.mode), ("n", .nat s.side), ("k", .nat s.answer)])]

def Solution.receipt (machine : Fingerprint) (s : Solution) : Json :=
  .object (("env", .object (machine.entries.map fun (name, value) => (name, .string value))) :: s.members)

def Case.solve (c : Case) (check : Bool) : Except SolveFault Solution := do
  let sections ← c.grid.sections c.mode
  let answer := sections.stage.answer
  if check then c.grid.checkSymmetry c.mode answer
  return ⟨Case.modeName c.mode, c.grid.side, answer, { sections with checked := check }⟩

/-- Whether the symmetry check is made: as asked, or else if the setting of the
machine is `1`. -/
def checkEnabled (asked : Option Bool) (setting : Option String) : Bool :=
  match asked with
  | some check => check
  | none => setting == some "1"

end SegmentFit
