import SegmentFit.Bytes.Hex
import SegmentFit.Json.Basic
import SegmentFit.Number.Shortest
import SegmentFit.Text.Quoted

/-!
# Writing JSON values

One printer, `render`, with three spellings. `compact` and `spaced` are JSON text in
ASCII and differ in the blanks after commas and colons; `display` is how messages
show a value. Members are written in their order; `sorted` puts them into the order
of their keys, at every depth, and `canonical` is the compact text of that.

In JSON text a control character or one beyond ASCII is written by its 16-bit units,
two of them from U+10000 on; a surrogate is a unit by itself.
-/

namespace SegmentFit.Json

/-- How the parts of a value are spelled. -/
structure Spelling where
  null : List Char
  truth : Bool → List Char
  infinity : List Char
  undefined : List Char
  text : CodeText → List Char
  afterItem : List Char
  afterKey : List Char

def unitEscape (unit : Nat) : List Char :=
  '\\' :: 'u' :: Hex.padded 4 unit

def escapedChar (c : Char) : List Char :=
  if c = Text.doubleQuote ∨ c = '\\' then ['\\', c]
  else if c = '\n' then ['\\', 'n']
  else if c = '\r' then ['\\', 'r']
  else if c = '\t' then ['\\', 't']
  else if c = '\x08' then ['\\', 'b']
  else if c = '\x0c' then ['\\', 'f']
  else if 0x20 ≤ c.toNat ∧ c.toNat < 0x7F then [c]
  else if c.toNat < 0x10000 then unitEscape c.toNat
  else
    unitEscape (0xD800 + (c.toNat - 0x10000) / 0x400)
      ++ unitEscape (0xDC00 + (c.toNat - 0x10000) % 0x400)

def escapedPoint : CodePoint → List Char
  | .char c => escapedChar c
  | .surrogate offset => unitEscape (CodePoint.surrogate offset).toNat

def escaped (text : CodeText) : List Char :=
  Text.doubleQuote :: text.flatMap escapedPoint ++ [Text.doubleQuote]

/-- JSON text without blanks. -/
def compact : Spelling where
  null := ['n', 'u', 'l', 'l']
  truth b := if b then ['t', 'r', 'u', 'e'] else ['f', 'a', 'l', 's', 'e']
  infinity := ['I', 'n', 'f', 'i', 'n', 'i', 't', 'y']
  undefined := ['N', 'a', 'N']
  text := escaped
  afterItem := [',']
  afterKey := [':']

/-- JSON text with a blank after each comma and each colon. -/
def spaced : Spelling :=
  { compact with afterItem := [',', ' '], afterKey := [':', ' '] }

/-- Values as messages show them. -/
def display : Spelling where
  null := ['N', 'o', 'n', 'e']
  truth b := if b then ['T', 'r', 'u', 'e'] else ['F', 'a', 'l', 's', 'e']
  infinity := ['i', 'n', 'f']
  undefined := ['n', 'a', 'n']
  text := Text.quotedText
  afterItem := [',', ' ']
  afterKey := [':', ' ']

def decimal (n : Int) : List Char :=
  if n < 0 then '-' :: Nat.toDigits 10 n.natAbs else Nat.toDigits 10 n.natAbs

mutual

def render (s : Spelling) : Json → List Char
  | .null => s.null
  | .bool b => s.truth b
  | .int n => decimal n
  | .real x => x.text s.infinity s.undefined
  | .str t => s.text t
  | .arr [] => ['[', ']']
  | .arr (v :: rest) => '[' :: render s v ++ renderItems s rest
  | .obj [] => ['\x7b', '\x7d']
  | .obj ((k, v) :: rest) =>
    '\x7b' :: s.text k ++ s.afterKey ++ render s v ++ renderMembers s rest

/-- The further items of a list, each after its comma, and the closing bracket. -/
def renderItems (s : Spelling) : List Json → List Char
  | [] => [']']
  | v :: rest => s.afterItem ++ render s v ++ renderItems s rest

/-- The further members of an object, each after its comma, and the closing brace. -/
def renderMembers (s : Spelling) : List (CodeText × Json) → List Char
  | [] => ['\x7d']
  | (k, v) :: rest =>
    s.afterItem ++ s.text k ++ s.afterKey ++ render s v ++ renderMembers s rest

end

mutual

/-- A value with the members of every object in the order of their keys. -/
def sorted : Json → Json
  | .arr items => .arr (sortedItems items)
  | .obj members =>
    .obj ((sortedMembers members).mergeSort fun a b => CodeText.le a.1 b.1)
  | v => v

def sortedItems : List Json → List Json
  | [] => []
  | v :: rest => sorted v :: sortedItems rest

def sortedMembers : List (CodeText × Json) → List (CodeText × Json)
  | [] => []
  | (k, v) :: rest => (k, sorted v) :: sortedMembers rest

end

def text (s : Spelling) (v : Json) : String :=
  String.ofList (render s v)

/-- The text that identifies a value up to the order of members: compact, keys sorted. -/
def canonical (v : Json) : String :=
  text compact (sorted v)

end SegmentFit.Json
