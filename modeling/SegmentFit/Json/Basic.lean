import SegmentFit.Number.Binary64
import SegmentFit.Text.CodePoint

/-!
# JSON values

A number is an integer of any size or, if it was written with a fraction or an exponent,
a binary one. Strings and keys are texts of code points, since an escape can name a
surrogate. An object keeps its members in the order in which they were written, and has
at most one member a key.

What this library writes of itself has strings and integers only: `string` and `object`
make such values.
-/

namespace SegmentFit

inductive Json where
  | null
  | bool (value : Bool)
  | int (value : Int)
  | real (value : Binary64)
  | str (value : CodeText)
  | arr (items : List Json)
  | obj (members : List (CodeText × Json))
  deriving Inhabited

namespace Json

def lookup (key : CodeText) : List (CodeText × Json) → Option Json
  | [] => none
  | (k, v) :: rest => if k = key then some v else lookup key rest

/-- The members with one added or replaced; a replaced member keeps its place. -/
def put (key : CodeText) (value : Json) : List (CodeText × Json) → List (CodeText × Json)
  | [] => [(key, value)]
  | (k, v) :: rest => if k = key then (k, value) :: rest else (k, v) :: put key value rest

def without (key : CodeText) (members : List (CodeText × Json)) : List (CodeText × Json) :=
  members.filter fun m => m.1 != key

def string (s : String) : Json := .str (CodeText.ofString s)

def object (members : List (String × Json)) : Json :=
  .obj (members.map fun (name, value) => (CodeText.ofString name, value))

def nat (n : Nat) : Json := .int n

/-- A value that may be absent. -/
def optional {α : Type} (encode : α → Json) : Option α → Json
  | none => .null
  | some a => encode a

end Json

end SegmentFit
