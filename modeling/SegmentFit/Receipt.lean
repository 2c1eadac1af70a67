import SegmentFit.Json.Printer
import SegmentFit.Longest
import SegmentFit.Pose
import SegmentFit.Search
import SegmentFit.Sweep

/-!
# Receipts — what a solve writes down

Every stage of a solve leaves a receipt. The receipts of one solve are its sections,
in a fixed order: the grid; for a single segment the longest runs, for a pair the
search and the sweep of each probe; and the symmetry check if it was made. Each
section is hashed by itself, as canonical JSON, and the names and hashes together once
more, so two solves can be compared by one hash and told apart section by section.
-/

namespace SegmentFit

/-- The machine that a solve ran on: names and values that may differ between machines. -/
structure Fingerprint where
  entries : List (String × String)
  deriving DecidableEq, Repr

inductive VersionFault where
  | nameless
  deriving DecidableEq, Repr

def VersionFault.message : VersionFault → String
  | .nameless => "A distribution name is required."

/-- The version of a component, given those that are installed. -/
def Fingerprint.version? (installed : List (String × String)) (name : String) :
    Except VersionFault String :=
  if name = "" then .error .nameless else .ok ((installed.lookup name).getD "unknown")

structure GridReceipt where
  side : Nat
  openCount : Nat
  digest : String
  deriving DecidableEq, Repr

def Grid.receipt (g : Grid) : Except EncodingFault GridReceipt :=
  g.tensor.digest?.map fun digest => ⟨g.side, g.openCount, digest⟩

/-- The receipts of the stage that answers the question. -/
inductive Stage where
  | line (receipt : LineReceipt)
  | pair (search : SearchReceipt) (sweeps : List SweepReceipt)
  deriving DecidableEq, Repr

structure Sections where
  grid : GridReceipt
  stage : Stage
  -- whether the answer was checked in every pose
  checked : Bool
  deriving DecidableEq, Repr

/-! ## As JSON -/

def Cell.json (c : Cell) : Json :=
  .arr [.nat c.row, .nat c.col]

def GridReceipt.json (r : GridReceipt) : Json :=
  .object [("n", .nat r.side), ("passable_count", .nat r.openCount), ("grid_hash", .string r.digest)]

def LineReceipt.json (r : LineReceipt) : Json :=
  .object [("k", .nat r.best), ("best_row", .nat r.bestRow), ("best_col", .nat r.bestColumn),
    ("row_end", .optional Cell.json r.rowEnd), ("col_end", .optional Cell.json r.columnEnd)]

def Probe.json (p : Probe) : Json :=
  .arr [.nat p.size, .bool p.accepted]

def SearchReceipt.json (r : SearchReceipt) : Json :=
  .object [("n", .nat r.bound), ("k", .nat r.lo), ("lo", .nat r.lo), ("hi", .nat r.hi),
    ("probes", .arr (r.probes.map Probe.json)), ("trace_hash", .string r.traceDigest)]

def SweepReceipt.json (r : SweepReceipt) : Json :=
  .object [("k", .nat r.threshold), ("feasible", .bool r.accepted),
    ("certificate", .optional (fun f => .string f.certificate.name) r.finding),
    ("at", .optional (fun f => f.cell.json) r.finding),
    ("horizontal_count", .nat r.count), ("cover_hash", .optional .string r.coverDigest)]

def checkJson : Json :=
  .object [("poses", .arr (Pose.all.map fun p => .nat p.number)), ("ok", .bool true)]

/-- The sections, named and in order. -/
def Sections.members (s : Sections) : List (String × Json) :=
  ("grid", s.grid.json) ::
    (match s.stage with
      | .line receipt => [("line_scan", receipt.json)]
      | .pair search sweeps =>
        [("search", search.json), ("feasibility", .arr (sweeps.map SweepReceipt.json))])
    ++ (if s.checked then [("self_check", checkJson)] else [])

/-! ## Hashes -/

def textBytes (text : String) : List UInt8 :=
  text.toUTF8.toList

/-- The hash of a section: of its canonical JSON. -/
def sectionDigest (value : Json) : String :=
  Blake3.hexDigest (textBytes value.canonical)

/-- The text that a table of hashes is known by: a line for each name, in their order. -/
def digestLines (digests : List (String × String)) : String :=
  let sorted := digests.mergeSort fun a b => decide (a.1 ≤ b.1)
  String.intercalate "\n" (sorted.map fun (name, digest) => name ++ ":" ++ digest)

def tableDigest (digests : List (String × String)) : String :=
  Blake3.hexDigest (textBytes (digestLines digests))

def Sections.digests (s : Sections) : List (String × String) :=
  s.members.map fun (name, value) => (name, sectionDigest value)

end SegmentFit
