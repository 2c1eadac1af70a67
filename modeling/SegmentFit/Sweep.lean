import SegmentFit.Coverage
import SegmentFit.Runs

/-!
# The sweep — do two disjoint segments of length `k` fit?

A segment is known by the cell where it ends: a run of at least `k` open cells up to
there. The sweep meets the ends of one axis in reading order along its lines, and
never compares two segments directly unless they lie along the same axis.

* **Rows.** The first end is the witness. A later segment that starts after the
  witness, or lies on a later row, is disjoint from it: the sweep is over. Otherwise
  its columns are counted in a tally.
* **Columns.** The cover of the tally, summed up over windows of `k` rows, says how
  many of the counted segments a vertical segment meets. The sweep succeeds at the
  first vertical segment that is disjoint from the first vertical one, or that meets
  fewer horizontal segments than were counted.

Each success leaves a certificate and the cell where it was found.
-/

namespace SegmentFit

/-- Where a segment ends: its line, and the position on that line. -/
structure SegmentEnd (side : Nat) where
  line : Fin side
  stop : Fin side
  deriving DecidableEq, Repr

/-- The segment of length `k` that ends at `first` lies on an earlier line than the one
that ends at `last`, or before its start. -/
def SegmentEnd.clears {side : Nat} (k : Nat) (first last : SegmentEnd side) : Bool :=
  decide (first.line < last.line) ||
    decide (first.line = last.line) && decide (first.stop + k ≤ last.stop.val)

namespace Grid

/-- The ends of the segments of length `k` along an axis, line by line. -/
def segmentEnds (g : Grid) (axis : Axis) (k : Nat) : List (SegmentEnd g.side) :=
  let lengths := g.runs axis
  let length (line stop : Fin g.side) : Nat :=
    match axis with
    | .rows => lengths.entry line stop
    | .columns => lengths.entry stop line
  (List.finRange g.side).flatMap fun line =>
    ((List.finRange g.side).filter fun stop => decide (k ≤ length line stop)).map
      fun stop => ⟨line, stop⟩

end Grid

inductive RowPhase (side : Nat) where
  -- a segment that is disjoint from the witness, and how many were counted before
  | pair (last : SegmentEnd side) (count : Nat)
  | counted (tally : Tally side)

/-- The row phase over the segments that are left, given the witness and the tally. -/
def sweepRows {side : Nat} (k : Nat) (first : SegmentEnd side) (tally : Tally side) :
    List (SegmentEnd side) → Except CoverageFault (RowPhase side)
  | [] => .ok (.counted tally)
  | last :: rest =>
    if first.clears k last then .ok (.pair last tally.count)
    else do
      let stop : Int := last.stop.val
      let tally ← tally.add last.line.val (stop - k + 1) (stop + 1)
      sweepRows k first tally rest

inductive Certificate where
  | horizontalPair
  | verticalPair
  | unclaimedHorizontal
  deriving DecidableEq, Repr

def Certificate.name : Certificate → String
  | .horizontalPair => "horizontal_pair"
  | .verticalPair => "vertical_pair"
  | .unclaimedHorizontal => "unclaimed_horizontal"

/-- The column phase over the segments that are left, given the first one. `unclaimed`
tells whether a vertical segment misses some counted horizontal one. -/
def sweepColumns {side : Nat} (k : Nat) (unclaimed : SegmentEnd side → Bool)
    (first : SegmentEnd side) :
    List (SegmentEnd side) → Option (Certificate × SegmentEnd side)
  | [] => none
  | last :: rest =>
    if first.clears k last then some (.verticalPair, last)
    else if unclaimed last then some (.unclaimedHorizontal, last)
    else sweepColumns k unclaimed first rest

/-- A certificate and the cell where the segment that gave it ends. -/
structure Finding where
  certificate : Certificate
  cell : Cell
  deriving DecidableEq, Repr

structure Sweep (side : Nat) where
  finding : Option Finding
  -- how many horizontal segments were counted
  count : Nat
  -- how many of them contain each cell, unless the row phase ended the sweep
  cover : Option (Table Int64 side side)

namespace Grid

def rowPhase (g : Grid) (k : Nat) : Except CoverageFault (RowPhase g.side) :=
  match g.segmentEnds .rows k with
  | [] => .ok (.counted (Tally.empty g.side))
  | first :: rest => sweepRows k first (Tally.empty g.side) (first :: rest)

/-- The column phase, given how many counted segments each vertical one meets. -/
def columnPhase (g : Grid) (k : Nat) (count : Nat) (meets : Table Int64 g.side g.side) :
    Option (Certificate × SegmentEnd g.side) :=
  let unclaimed (last : SegmentEnd g.side) : Bool :=
    decide ((meets.entry last.stop last.line).toInt < count)
  match g.segmentEnds .columns k with
  | [] => none
  | first :: rest => sweepColumns k unclaimed first (first :: rest)

def sweep (g : Grid) (k : Nat) : Except CoverageFault (Sweep g.side) := do
  match ← g.rowPhase k with
  | .pair last count =>
    return ⟨some ⟨.horizontalPair, ⟨last.line, last.stop⟩⟩, count, none⟩
  | .counted tally =>
    let cover := tally.cover
    let meets ← cover.windowSums? k
    let found := g.columnPhase k tally.count meets
    return ⟨found.map fun (why, last) => ⟨why, ⟨last.stop, last.line⟩⟩, tally.count, some cover⟩

/-- Whether the sweep finds two disjoint segments of length `k`. -/
def accepts (g : Grid) (k : Nat) : Bool :=
  match g.sweep k with
  | .ok s => s.finding.isSome
  | .error _ => false

end Grid

/-! ## Receipts of sweeps -/

/-- Why a sweep leaves no receipt. -/
inductive SweepFault where
  | threshold (k : Int)
  | coverage (fault : CoverageFault)
  | encoding (fault : EncodingFault)
  deriving DecidableEq, Repr

def SweepFault.message : SweepFault → String
  | .threshold k => s!"k must be >= 0, got {k}"
  | .coverage fault => fault.message
  | .encoding fault => fault.message

instance : Fault SweepFault where
  kind
    | .threshold _ => .value
    | .coverage fault => Fault.kind fault
    | .encoding fault => Fault.kind fault
  numbers
    | .threshold k => [k]
    | .coverage fault => Fault.numbers fault
    | .encoding fault => Fault.numbers fault
  message := SweepFault.message

structure SweepReceipt where
  threshold : Nat
  finding : Option Finding
  count : Nat
  -- the hash of the cover
  coverDigest : Option String
  deriving DecidableEq, Repr

def SweepReceipt.accepted (r : SweepReceipt) : Bool :=
  r.finding.isSome

namespace Grid

def sweepReceipt (g : Grid) (k : Int) : Except SweepFault SweepReceipt :=
  if k < 0 then .error (.threshold k)
  else do
    let s ← (g.sweep k.toNat).mapError .coverage
    let digest ← match s.cover with
      | none => pure none
      | some cover => (cover.wordTensor.digest?.map some).mapError .encoding
    return ⟨k.toNat, s.finding, s.count, digest⟩

/-- Whether two disjoint segments of length `k` fit. -/
def feasible (g : Grid) (k : Int) : Except SweepFault Bool :=
  (g.sweepReceipt k).map SweepReceipt.accepted

end Grid

end SegmentFit
