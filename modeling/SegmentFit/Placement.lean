import SegmentFit.Grid

/-!
# Placements — what the answers are about

A placement of length `k` is a straight segment of `k` cells in a row or in a column.
It fits a grid when its cells are all open. Two placements are disjoint when they
share no cell. These definitions say what is looked for and nothing about how.
-/

namespace SegmentFit

/-- A segment's direction, the line it lies on, and the position where it starts. -/
structure Placement where
  axis : Axis
  line : Nat
  start : Nat
  deriving DecidableEq, Repr

namespace Placement

def cell (p : Placement) (t : Nat) : Cell :=
  match p.axis with
  | .rows => ⟨p.line, p.start + t⟩
  | .columns => ⟨p.start + t, p.line⟩

/-- The cells of a placement of length `k`. -/
def cells (p : Placement) (k : Nat) : List Cell :=
  (List.range k).map p.cell

/-- All cells of a placement of length `k` are open. -/
def Fits (g : Grid) (k : Nat) (p : Placement) : Prop :=
  ∀ c ∈ p.cells k, g.isOpen c.row c.col = true

/-- Two placements of length `k` share no cell. -/
def Disjoint (k : Nat) (p q : Placement) : Prop :=
  ∀ c ∈ p.cells k, c ∉ q.cells k

end Placement

/-- Some segment of length `k` fits. -/
def Grid.FitsOne (g : Grid) (k : Nat) : Prop :=
  ∃ p : Placement, p.Fits g k

/-- Two disjoint segments of length `k` fit. -/
def Grid.FitsPair (g : Grid) (k : Nat) : Prop :=
  ∃ p q : Placement, p.Fits g k ∧ q.Fits g k ∧ p.Disjoint k q

end SegmentFit
