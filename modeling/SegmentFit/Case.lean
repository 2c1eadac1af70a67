import SegmentFit.Grid
import SegmentFit.Text.Blank
import SegmentFit.Text.Numeral

/-!
# Cases — a grid and the question put to it

The text of a case is a list of words: the side, the mode number, and one word of
markers for each row. Mode `1` asks for the longest single segment, every other number
for the largest pair of disjoint ones. Of several faults the first in this order is
named: missing header, side, mode, side below one, number of rows, and then row by row
its length and its markers. Rows without a fault become a grid, which looks at them once
more.

An expected answer is a text of one word, a numeral.
-/

namespace SegmentFit

/-- A grid and a mode number. -/
structure Case where
  grid : Grid
  mode : Int

inductive HeaderField where
  | side
  | mode
  deriving DecidableEq, Repr

def HeaderField.name : HeaderField → String
  | .side => "n"
  | .mode => "m"

/-- Why a text is no case. -/
inductive CaseFault where
  | noHeader
  | notInteger (field : HeaderField) (word : List Char)
  | sideTooSmall (side : Int)
  | rowCount (expected : Int) (found : Nat)
  | rowLength (row : Nat) (expected : Int) (found : Nat)
  | marker (row col : Nat) (found : Char)
  | grid (fault : GridFault)
  deriving DecidableEq, Repr

def CaseFault.message : CaseFault → String
  | .noHeader => "header: expected 'n m'"
  | .notInteger field word =>
    s!"header: {field.name} must be an integer, got " ++ String.ofList (Text.quoted word)
  | .sideTooSmall side => s!"header: n must be >= 1, got {side}"
  | .rowCount expected found => s!"expected {expected} rows, got {found}"
  | .rowLength row expected found => s!"row {row}: expected {expected} cells, got {found}"
  | .marker row col found =>
    s!"row {row} col {col}: unknown marker " ++ Text.quotedCharacter found
      ++ " (expected " ++ Text.quotedCharacter Grid.openMarker
      ++ " or " ++ Text.quotedCharacter Grid.blockedMarker ++ ")"
  | .grid fault => fault.message

namespace Case

/-- The mode number that asks for a single segment. -/
def lineMode : Int := 1

def modeName (mode : Int) : String :=
  if mode = lineMode then "line" else "pair"

def headerInteger (field : HeaderField) (word : List Char) : Except CaseFault Int :=
  (Numeral.read word).mapError fun _ => .notInteger field word

/-- The first character of a row, from the `j`-th on, that is no marker. -/
def markerFault? (i j : Nat) : List Char → Option CaseFault
  | [] => none
  | c :: rest => if Grid.isMarker c then markerFault? i (j + 1) rest else some (.marker i j c)

/-- The first fault of rows from the `i`-th on, if each must have `side` markers. -/
def rowFault? (side : Nat) (i : Nat) : List (List Char) → Option CaseFault
  | [] => none
  | row :: rest =>
    if row.length ≠ side then some (.rowLength i side row.length)
    else
      match markerFault? i 0 row with
      | some fault => some fault
      | none => rowFault? side (i + 1) rest

def ofWords : List (List Char) → Except CaseFault Case
  | sideWord :: modeWord :: rows => do
    let side ← headerInteger .side sideWord
    let mode ← headerInteger .mode modeWord
    if side < 1 then .error (.sideTooSmall side)
    else if (rows.length : Int) ≠ side then .error (.rowCount side rows.length)
    else
      match rowFault? rows.length 0 rows with
      | some fault => .error fault
      | none =>
        let grid ← (Grid.ofRows rows).mapError .grid
        return ⟨grid, mode⟩
  | _ => .error .noHeader

def parse (text : List Char) : Except CaseFault Case :=
  ofWords (Text.words text)

end Case

/-- Why a text is no expected answer. -/
inductive AnswerFault where
  | wordCount (path : String) (found : Nat)
  | numeral (fault : NumeralFault)
  deriving DecidableEq, Repr

def AnswerFault.message : AnswerFault → String
  | .wordCount path found => s!"{path}: expected a single integer, got {found} tokens"
  | .numeral fault => fault.message

/-- The expected answer in the text of a file. -/
def expectedAnswer (path : String) (text : List Char) : Except AnswerFault Int :=
  match Text.words text with
  | [word] => (Numeral.read word).mapError .numeral
  | words => .error (.wordCount path words.length)

/-- An answer as it is printed, on a line of its own. -/
def answerLine (k : Int) : String :=
  s!"{k}\n"

end SegmentFit
