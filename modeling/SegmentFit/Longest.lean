import SegmentFit.Runs

/-!
# The longest run — the answer for a single segment

The longest run along each axis, and the cell where it ends: of several such cells the
first in reading order, and none on a grid without open cells.
-/

namespace SegmentFit

/-- A greatest entry that is not zero, and its first place, updated by one more. -/
def better (best : Nat × Option Cell) (cell : Cell) (value : Nat) : Nat × Option Cell :=
  if best.1 < value then (value, some cell) else best

/-- The greatest entry of a table, and its first place in reading order if it is not zero. -/
def Table.greatest {h w : Nat} (t : Table Nat h w) : Nat × Option Cell :=
  (List.finRange h).foldl
    (fun best (i : Fin h) =>
      (List.finRange w).foldl (fun best (j : Fin w) => better best ⟨i, j⟩ (t.entry i j)) best)
    (0, none)

structure LineReceipt where
  best : Nat
  bestRow : Nat
  bestColumn : Nat
  rowEnd : Option Cell
  columnEnd : Option Cell
  deriving DecidableEq, Repr

def Grid.lineReceipt (g : Grid) : LineReceipt :=
  let (bestRow, rowEnd) := g.rowRuns.greatest
  let (bestColumn, columnEnd) := g.columnRuns.greatest
  ⟨max bestRow bestColumn, bestRow, bestColumn, rowEnd, columnEnd⟩

end SegmentFit
