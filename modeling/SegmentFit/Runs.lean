import SegmentFit.Grid

/-!
# Runs — how many open cells in a row end at a cell

A cell's run length along a line is the number of open cells from the last blocked
one up to the cell itself. It is measured as a distance: `barriers` keeps, for every
cell, the place just after the last blocked cell so far, and the run length is how far
the cell's own end lies beyond that.

Rows are measured line by line, columns for the whole grid at once.
-/

namespace SegmentFit

/-- For each cell of a line, one past the last blocked cell up to there, `0` if none. -/
def barriers {n : Nat} (line : Vector Bool n) : Vector Nat n :=
  scan (fun last cell => if cell.1 then last else cell.2 + 1) 0 line.zipIdx

def runLengths {n : Nat} (line : Vector Bool n) : Vector Nat n :=
  let last := barriers line
  Vector.ofFn fun t => t + 1 - last.get t

namespace Grid

def rowRuns (g : Grid) : Table Nat g.side g.side :=
  ⟨g.cells.rows.map runLengths⟩

/-- For each cell, one past the last blocked cell above it or at it, `0` if none. -/
def columnBarriers (g : Grid) : Table Nat g.side g.side :=
  ⟨scan
    (fun last row => Vector.zipWith (fun b isOpen => if isOpen then b else row.2 + 1) last row.1)
    (Vector.replicate g.side 0) g.cells.rows.zipIdx⟩

def columnRuns (g : Grid) : Table Nat g.side g.side :=
  let last := g.columnBarriers
  Table.ofFn fun i j => i + 1 - last.entry i j

def runs (g : Grid) : Axis → Table Nat g.side g.side
  | .rows => g.rowRuns
  | .columns => g.columnRuns

def runs? (g : Grid) (axis : Int) : Except LookupFault (Table Nat g.side g.side) :=
  match Axis.ofInt? axis with
  | none => .error (.runAxis axis)
  | some axis => .ok (g.runs axis)

end Grid

/-- The run lengths of an array of one axis; an array of another shape has none. -/
def Tensor.runLengths? (array : Tensor) : Except (List Nat) (List Nat) :=
  match array.shape with
  | [_] => .ok (runLengths ⟨(array.entries.map (· != 0)).toArray, rfl⟩).toList
  | shape => .error shape

def lineShapeMessage (shape : List Nat) : String :=
  "scan_line expects a 1-D line, got shape " ++ shapeText shape

end SegmentFit
