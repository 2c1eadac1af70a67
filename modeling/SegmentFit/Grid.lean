import SegmentFit.Table
import SegmentFit.Text.Quoted

/-!
# Grids — square fields of open and blocked cells

A grid has at least one row, as many columns as rows, and a side that leaves room for
one more below `2 ^ 63`, so that every size that occurs on the way to an answer has a
varint. All three are part of the type; the ways to build one (`ofRows`, `ofTensor`)
name the first requirement that is missed.

`isOpen` is how a grid is looked at: a truth value for every pair of natural numbers,
`false` outside.
-/

namespace SegmentFit

/-- A square field of cells, `true` where open. -/
structure Grid where
  side : Nat
  cells : Table Bool side side
  side_pos : 0 < side
  side_bound : side + 1 < Varint.limit

structure Cell where
  row : Nat
  col : Nat
  deriving DecidableEq, Repr

/-- Why cells make up no grid. -/
inductive GridFault where
  | ragged (row expected found : Nat)
  | markers (row : Nat) (unknown : List Char)
  | notSquare (shape : List Nat)
  | empty
  -- the side leaves no room below the limit of a varint
  | tooLarge (side : Nat)
  deriving DecidableEq, Repr

/-- A shape between round brackets; one of a single axis has a comma. -/
def shapeText : List Nat → String
  | [] => "()"
  | [n] => s!"({n},)"
  | shape => "(" ++ String.intercalate ", " (shape.map toString) ++ ")"

def GridFault.message : GridFault → String
  | .ragged row expected found => s!"row {row}: expected {expected} cells, got {found}"
  | .markers row unknown =>
    s!"row {row}: unknown markers " ++ Text.quotedList (unknown.map fun c => [.char c])
  | .notSquare shape => "Grid must be square, got shape " ++ shapeText shape
  | .empty => "Grid must have n >= 1"
  | .tooLarge side => s!"Grid must have n + 1 < {Varint.limit}, got {side}"

namespace Grid

def openMarker : Char := '.'

def blockedMarker : Char := '#'

def isMarker (c : Char) : Bool :=
  c == openMarker || c == blockedMarker

def marker (isOpen : Bool) : Char :=
  if isOpen then openMarker else blockedMarker

/-- Whether the cell in a row and a column is open; no cell outside is. -/
def isOpen (g : Grid) (i j : Nat) : Bool :=
  if h : i < g.side ∧ j < g.side then g.cells.entry ⟨i, h.1⟩ ⟨j, h.2⟩ else false

def tableOf (side : Nat) (rows : List (List Char)) : Table Bool side side :=
  let a := (rows.map List.toArray).toArray
  Table.ofFn fun i j => (a.getD i #[]).getD j blockedMarker == openMarker

def ofTable (side : Nat) (cells : Table Bool side side) : Except GridFault Grid :=
  if hp : 0 < side then
    if hb : side + 1 < Varint.limit then .ok ⟨side, cells, hp, hb⟩
    else .error (.tooLarge side)
  else .error .empty

/-- The unknown markers of a row, in the order of their code points, each once. -/
def unknownMarkers (row : List Char) : List Char :=
  ((row.filter fun c => !isMarker c).eraseDups).mergeSort fun a b => decide (a.toNat ≤ b.toNat)

/-- The first fault of rows from the `i`-th on, if each must have `side` markers. -/
def rowFault? (side : Nat) (i : Nat) : List (List Char) → Option GridFault
  | [] => none
  | row :: rest =>
    if row.length ≠ side then some (.ragged i side row.length)
    else if (unknownMarkers row).isEmpty then rowFault? side (i + 1) rest
    else some (.markers i (unknownMarkers row))

def ofRows (rows : List (List Char)) : Except GridFault Grid :=
  match rowFault? rows.length 0 rows with
  | some fault => .error fault
  | none => ofTable rows.length (tableOf rows.length rows)

/-- The grid of a square array, open where the entry is not zero. -/
def ofTensor (array : Tensor) : Except GridFault Grid :=
  match array.shape with
  | [h, w] =>
    if h = w then
      let a := array.entries.toArray
      ofTable h (Table.ofFn fun i j => a.getD (i * h + j) 0 != 0)
    else .error (.notSquare array.shape)
  | shape => .error (.notSquare shape)

def toRows (g : Grid) : List (List Char) :=
  g.cells.toLists.map fun row => row.map marker

def openCount (g : Grid) : Nat :=
  g.cells.toLists.flatten.count true

def tensor (g : Grid) : Tensor :=
  g.cells.tensor .boolean fun c => if c then 1 else 0

def transposed (g : Grid) : Grid :=
  { g with cells := g.cells.transposed }

def flipped (g : Grid) : Grid :=
  { g with cells := g.cells.flipped }

/-- The grid after a quarter turn clockwise. -/
def turned (g : Grid) : Grid :=
  { g with cells := g.cells.turned }

end Grid

/-! ## Lookups by unchecked coordinates -/

inductive Axis where
  | rows
  | columns
  deriving DecidableEq, Repr

/-- The axis of a number: `0` for rows, `1` for columns. -/
def Axis.ofInt? (n : Int) : Option Axis :=
  if n = 0 then some .rows else if n = 1 then some .columns else none

/-- Why a lookup has no answer. -/
inductive LookupFault where
  | cell (row col : Int) (side : Nat)
  -- there is no such axis to take a line along
  | lineAxis (axis : Int)
  | line (index : Int) (side : Nat)
  -- there is no such axis to measure runs along
  | runAxis (axis : Int)
  deriving DecidableEq, Repr

def LookupFault.message : LookupFault → String
  | .cell row col side => s!"cell_oob: req=({row},{col}) vs grid=({side},{side})"
  | .lineAxis axis => s!"Invalid axis {axis}, must be 0 (rows) or 1 (cols)"
  | .line index side => s!"line_oob: req={index} vs n={side}"
  | .runAxis axis => s!"Invalid axis {axis}, must be ROWS=0 or COLS=1"

instance : Fault LookupFault where
  kind
    | .cell _ _ _ | .line _ _ => .index
    | .lineAxis _ | .runAxis _ => .value
  numbers
    | .cell row col side => [row, col, side]
    | .lineAxis axis | .runAxis axis => [axis]
    | .line index side => [index, side]
  message := LookupFault.message

namespace Grid

/-- A coordinate that lies on the grid. -/
def coordinate? (g : Grid) (i : Int) : Option (Fin g.side) :=
  if h : 0 ≤ i ∧ i < g.side then some ⟨i.toNat, by omega⟩ else none

theorem coordinate?_natCast (g : Grid) {i : Nat} (hi : i < g.side) :
    g.coordinate? i = some ⟨i, hi⟩ :=
  dif_pos ⟨Int.natCast_nonneg i, Int.ofNat_lt.mpr hi⟩

def cell? (g : Grid) (row col : Int) : Except LookupFault Bool :=
  match g.coordinate? row, g.coordinate? col with
  | some i, some j => .ok (g.cells.entry i j)
  | _, _ => .error (.cell row col g.side)

/-- The cells of a row, from the left. -/
def row (g : Grid) (i : Fin g.side) : Vector Bool g.side :=
  g.cells.rows[i]

/-- The cells of a column, from the top. -/
def column (g : Grid) (j : Fin g.side) : Vector Bool g.side :=
  Vector.ofFn fun i => g.cells.entry i j

def line? (g : Grid) (axis index : Int) : Except LookupFault (Vector Bool g.side) :=
  match Axis.ofInt? axis with
  | none => .error (.lineAxis axis)
  | some axis =>
    match g.coordinate? index with
    | none => .error (.line index g.side)
    | some i => .ok (match axis with | .rows => g.row i | .columns => g.column i)

end Grid

end SegmentFit
