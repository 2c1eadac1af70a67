import SegmentFit.Table

/-!
# Coverage — counting intervals by their ends

A `Tally` counts half-open intervals of columns, row by row, without visiting the
columns in between: an interval adds one where it starts and takes one away where it
ends. Summed up along a row, these differences give the number of intervals that
contain each column (`cover`).

`windowSums` adds up the last `k` rows of a table, column by column, as a difference
of two prefix sums. All sums are taken in 64-bit words, which wrap.
-/

namespace SegmentFit

/-- Why a tally or a window sum is refused. -/
inductive CoverageFault where
  -- a tally needs at least one row
  | size (n : Int)
  -- the interval is empty, or it leaves the table
  | interval (row lo hi : Int) (side : Nat)
  | height (k : Int)
  deriving DecidableEq, Repr

def CoverageFault.message : CoverageFault → String
  | .size n => s!"RowIntervalCounter needs n >= 1, got {n}"
  | .interval row lo hi side => s!"interval_oob: row={row} [{lo},{hi}) vs n={side}"
  | .height k => s!"window height must be >= 1, got {k}"

instance : Fault CoverageFault where
  kind
    | .interval _ _ _ _ => .index
    | .size _ | .height _ => .value
  numbers
    | .size n => [n]
    | .interval row lo hi side => [row, lo, hi, side]
    | .height k => [k]
  message := CoverageFault.message

/-- Intervals of columns on a field of a given side, counted by their ends. -/
structure Tally (side : Nat) where
  differences : Table Int64 side (side + 1)
  count : Nat

namespace Tally

def empty (side : Nat) : Tally side :=
  ⟨Table.ofFn fun _ _ => 0, 0⟩

def side? (n : Int) : Except CoverageFault Nat :=
  if n < 1 then .error (.size n) else .ok n.toNat

/-- The tally with one more interval `[lo, hi)` in a row. -/
def add {side : Nat} (t : Tally side) (row lo hi : Int) : Except CoverageFault (Tally side) :=
  if h : (0 ≤ row ∧ row < side) ∧ 0 ≤ lo ∧ lo < hi ∧ hi ≤ side then
    let row : Fin side := ⟨row.toNat, by omega⟩
    let lo : Fin (side + 1) := ⟨lo.toNat, by omega⟩
    let hi : Fin (side + 1) := ⟨hi.toNat, by omega⟩
    .ok ⟨(t.differences.modify row lo (· + 1)).modify row hi (· - 1), t.count + 1⟩
  else .error (.interval row lo hi side)

/-- How many intervals contain each cell. -/
def cover {side : Nat} (t : Tally side) : Table Int64 side side :=
  let sums : Table Int64 side (side + 1) :=
    ⟨t.differences.rows.map (scan (fun sum d => sum + d) 0)⟩
  Table.ofFn fun i j => sums.entry i j.castSucc

end Tally

namespace Table

variable {h w : Nat}

def columnSums (t : Table Int64 h w) : Table Int64 h w :=
  ⟨scan (fun sums row => Vector.zipWith (fun sum d => sum + d) sums row)
    (Vector.replicate w 0) t.rows⟩

/-- The sums of each column over the last `k` rows down to each row. -/
def windowSums (t : Table Int64 h w) (k : Nat) : Table Int64 h w :=
  let sums := t.columnSums
  Table.ofFn fun i j =>
    if k ≤ i.val then sums.entry i j - sums.entry ⟨i.val - k, by omega⟩ j
    else sums.entry i j

/-- The window sums of a height that may be out of range. -/
def windowSums? (t : Table Int64 h w) (k : Int) : Except CoverageFault (Table Int64 h w) :=
  if k < 1 then .error (.height k) else .ok (t.windowSums k.toNat)

def wordTensor (t : Table Int64 h w) : Tensor :=
  t.tensor .signed Int64.toInt

end Table

end SegmentFit
