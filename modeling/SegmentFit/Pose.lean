import SegmentFit.Grid

/-!
# Poses — the eight ways to lay a sheet

A pose is a number of quarter turns clockwise, after a reflection that exchanges left
and right or without one. Poses are numbered: `0` to `3` turn only, `4` to `7` reflect
first.

`Pose.act` applies a pose to anything that can be reflected and turned, so tables of
any size and grids share one definition.
-/

namespace SegmentFit

/-- A way to lay a sheet. -/
structure Pose where
  reflected : Bool
  turns : Fin 4
  deriving DecidableEq, Repr

/-- Why a number is no pose, or an array is not moved by one. -/
inductive PoseFault where
  | apply (number : Int)
  | invert (number : Int)
  -- an array without two axes cannot be turned
  | turn (axes : Nat)
  -- nor can it be reflected
  | reflect
  deriving DecidableEq, Repr

def PoseFault.message : PoseFault → String
  | .apply number => s!"Invalid pose_id {number}, must be in (0, 1, 2, 3, 4, 5, 6, 7)"
  | .invert number => s!"Invalid pose_id {number}"
  | .turn 0 => "Axes=(0, 1) out of range for array of ndim=0."
  | .turn _ => "Axes must be different."
  | .reflect => "Input must be >= 2-d."

instance : Fault PoseFault where
  kind _ := .value
  numbers
    | .apply number | .invert number => [number]
    | .turn _ | .reflect => []
  message := PoseFault.message

namespace Pose

def number (p : Pose) : Nat :=
  if p.reflected then 4 + p.turns else p.turns

def ofNumber? (n : Int) : Option Pose :=
  if h : 0 ≤ n ∧ n < 4 then some ⟨false, ⟨n.toNat, by omega⟩⟩
  else if h : 4 ≤ n ∧ n < 8 then some ⟨true, ⟨(n - 4).toNat, by omega⟩⟩
  else none

def identity : Pose := ⟨false, 0⟩

/-- The poses in the order of their numbers. -/
def all : List Pose :=
  [⟨false, 0⟩, ⟨false, 1⟩, ⟨false, 2⟩, ⟨false, 3⟩, ⟨true, 0⟩, ⟨true, 1⟩, ⟨true, 2⟩, ⟨true, 3⟩]

/-- The pose that undoes a pose: a reflected one undoes itself. -/
def inverse (p : Pose) : Pose :=
  if p.reflected then p else ⟨false, -p.turns⟩

/-- Apply a pose to what `flip` reflects and `turn` turns. -/
def act {α : Type} (flip turn : α → α) (p : Pose) (x : α) : α :=
  Nat.repeat turn p.turns (if p.reflected then flip x else x)

def applied (n : Int) : Except PoseFault Pose :=
  match ofNumber? n with
  | some p => .ok p
  | none => .error (.apply n)

def inverted (n : Int) : Except PoseFault Pose :=
  match ofNumber? n with
  | some p => .ok p.inverse
  | none => .error (.invert n)

end Pose

def Rectangle.posed {α : Type} (p : Pose) (r : Rectangle α) : Rectangle α :=
  p.act Rectangle.flipped Rectangle.turned r

/-- An array in a pose, which moves its first two axes: with more of them, what moves are
the blocks of entries that the others span. One without two axes has nothing to move, and
comes back with one axis at least. -/
def Tensor.posed (p : Pose) (array : Tensor) : Tensor :=
  match array.shape with
  | [] => { array with shape := [1] }
  | [_] => array
  | [height, width] =>
    let r := (Rectangle.ofEntries height width array.entries).posed p
    { array with shape := [r.height, r.width], entries := r.table.toLists.flatten }
  | height :: width :: inner =>
    let size := inner.foldl (fun n length => n * length) 1
    let blocks := (List.range (height * width)).map fun i =>
      (array.entries.drop (i * size)).take size
    let r := (Rectangle.ofEntries height width blocks).posed p
    { array with shape := r.height :: r.width :: inner, entries := r.table.toLists.flatten.flatten }

/-- An array in a pose; one without two axes is neither turned nor reflected. -/
def Tensor.posed? (p : Pose) (array : Tensor) : Except PoseFault Tensor :=
  if p = .identity ∨ 2 ≤ array.shape.length then .ok (array.posed p)
  else if p.reflected then .error .reflect
  else .error (.turn array.shape.length)

def Grid.posed (p : Pose) (g : Grid) : Grid :=
  p.act Grid.flipped Grid.turned g

end SegmentFit
