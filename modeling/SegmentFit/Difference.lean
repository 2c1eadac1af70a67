import SegmentFit.Json.Printer

/-!
# Differences — where two values or two lists of records part

Two values are compared member by member and item by item, and every place where they
part is named by its path. Members are met in the order of their keys, whatever order
they were written in. At a leaf `true` counts as `1` and `false` as `0`, and numbers are
compared by their values, whether they were written with a fraction or not.

Records are compared one by one. What a record says of its machine is passed over: the
member `env` of the record itself, but not one that lies deeper.
-/

namespace SegmentFit

/-- A place where two values part. -/
inductive Difference where
  | recordCount (left right : Nat)
  | onlyLeft (path : CodeText) (keys : List CodeText)
  | onlyRight (path : CodeText) (keys : List CodeText)
  | length (path : CodeText) (left right : Nat)
  -- two values that are not equal, and not both objects or both lists
  | values (path : CodeText) (left right : Json)

namespace Difference

def path : Difference → CodeText
  | .recordCount _ _ => []
  | .onlyLeft path _ | .onlyRight path _ | .length path _ _ | .values path _ _ => path

def remark : Difference → String
  | .recordCount left right => s!"record count mismatch ({left} vs {right})"
  | .onlyLeft _ keys => ": keys only in A: " ++ Text.quotedList keys
  | .onlyRight _ keys => ": keys only in B: " ++ Text.quotedList keys
  | .length _ left right => s!": length {left} != {right}"
  | .values _ left right => ": " ++ left.text Json.display ++ " != " ++ right.text Json.display

def text (d : Difference) : CodeText :=
  d.path ++ CodeText.ofString d.remark

end Difference

def memberPath (path key : CodeText) : CodeText :=
  if path.isEmpty then key else path ++ CodePoint.char '.' :: key

def itemPath (path : CodeText) (i : Nat) : CodeText :=
  path ++ CodeText.ofString s!"[{i}]"

example : memberPath [] (CodeText.ofString "a") = CodeText.ofString "a" := by decide +kernel
example : memberPath (CodeText.ofString "a") (CodeText.ofString "b") = CodeText.ofString "a.b" := by
  decide +kernel

namespace Json

/-- The integer that a truth value or an integer counts as. -/
def integer? : Json → Option Int
  | .bool b => some (if b then 1 else 0)
  | .int n => some n
  | _ => none

/-- Whether a value counts as an integer that is equal to a binary number. -/
def sameReal (x : Binary64) (v : Json) : Bool :=
  match v.integer? with
  | some n => x.sameInt n
  | none => false

def sameLeaf : Json → Json → Bool
  | .null, .null => true
  | .str s, .str t => s == t
  | .real x, .real y => x.same y
  | .real x, v | v, .real x => sameReal x v
  | a, b =>
    match a.integer?, b.integer? with
    | some m, some n => m == n
    | _, _ => false

/-- The keys of the first members that the second ones lack, in order. -/
def missingKeys (members others : List (CodeText × Json)) : List CodeText :=
  ((members.map fun m => m.1).filter fun key => (lookup key others).isNone).mergeSort
    CodeText.le

/-- A list of differences, unless there is nothing to name. -/
def named (name : List CodeText → Difference) (keys : List CodeText) : List Difference :=
  if keys.isEmpty then [] else [name keys]

mutual

def differences (path : CodeText) : Json → Json → List Difference
  | .obj left, .obj right =>
    named (.onlyLeft path) (missingKeys left right)
      ++ named (.onlyRight path) (missingKeys right left)
      ++ ((memberDifferences path right left).mergeSort fun a b => CodeText.le a.1 b.1).flatMap
        fun found => found.2
  | .arr left, .arr right =>
    if left.length = right.length then itemDifferences path 0 right left
    else [.length path left.length right.length]
  | left, right => if sameLeaf left right then [] else [.values path left right]

def itemDifferences (path : CodeText) (i : Nat) (right : List Json) :
    List Json → List Difference
  | [] => []
  | v :: rest =>
    match right with
    | [] => []
    | w :: others =>
      differences (itemPath path i) v w ++ itemDifferences path (i + 1) others rest

/-- For each key that both sides have, the differences of its values, given the members
on the right. -/
def memberDifferences (path : CodeText) (right : List (CodeText × Json)) :
    List (CodeText × Json) → List (CodeText × List Difference)
  | [] => []
  | (key, v) :: rest =>
    match lookup key right with
    | none => memberDifferences path right rest
    | some w =>
      (key, differences (memberPath path key) v w) :: memberDifferences path right rest

end

end Json

/-! ## Records -/

inductive RecordFault where
  | notObject (value : Json)

def Json.kindName : Json → String
  | .null => "NoneType"
  | .bool _ => "bool"
  | .int _ => "int"
  | .real _ => "float"
  | .str _ => "str"
  | .arr _ => "list"
  | .obj _ => "dict"

def RecordFault.message : RecordFault → String
  | .notObject value =>
    Text.quotedString value.kindName ++ " object has no attribute " ++ Text.quotedString "items"

/-- What a record says, but for its machine. -/
def machineFree : Json → Except RecordFault Json
  | .obj members => .ok (.obj (Json.without "env" members))
  | value => .error (.notObject value)

def pairDifferences (i : Nat) : List (Json × Json) → Except RecordFault (List Difference)
  | [] => .ok []
  | (a, b) :: rest => do
    let left ← machineFree a
    let right ← machineFree b
    let later ← pairDifferences (i + 1) rest
    return Json.differences (itemPath "record" i) left right ++ later

def compareRecords (left right : List Json) : Except RecordFault (List Difference) :=
  if left.length = right.length then pairDifferences 0 (left.zip right)
  else .ok [.recordCount left.length right.length]

end SegmentFit
