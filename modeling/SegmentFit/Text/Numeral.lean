import SegmentFit.Text.DecimalDigit
import SegmentFit.Text.Quoted

/-!
# Numerals — integers as files and headers hold them

A numeral is an optional sign and decimal digits of any script, with single
underscores allowed between digits. Leading zeros are allowed and count as digits;
more than 4300 digits are refused.
-/

namespace SegmentFit

/-- Why a word is no numeral. -/
inductive NumeralFault where
  | form (word : List Char)
  | tooLong (digits : Nat)
  deriving DecidableEq, Repr

namespace Numeral

def digitLimit : Nat := 4300

/-- The text of a limit that is passed. -/
def limitMessage (digits : Nat) : String :=
  s!"Exceeds the limit ({digitLimit} digits) for integer string conversion: "
    ++ s!"value has {digits} digits; use sys.set_int_max_str_digits() to increase the limit"

end Numeral

/-- The text of a fault. The word is shown between quotes, cut off after 200 characters. -/
def NumeralFault.message : NumeralFault → String
  | .form word =>
    "invalid literal for int() with base 10: " ++ String.ofList ((Text.quoted word).take 200)
  | .tooLong digits => Numeral.limitMessage digits

namespace Numeral

/-- What a word consists of after its sign. -/
inductive Mark where
  | digit (value : Nat)
  | underscore
  | other
  deriving DecidableEq, Repr

def Mark.of (c : Char) : Mark :=
  if c = '_' then .underscore
  else match Text.digitValue? c with
    | some v => .digit v
    | none => .other

/-- Digits and underscores up to the first other character: the digits' values, and
whether the word ends there. No value if underscores are doubled, first or last. -/
def digitsAfter : Mark → List Mark → Option (List Nat × Bool)
  | .digit _, [] => some ([], true)
  | _, [] => none
  | .digit _, .other :: _ => some ([], false)
  | _, .other :: _ => none
  | .digit _, .underscore :: rest => digitsAfter .underscore rest
  | _, .underscore :: _ => none
  | _, .digit v :: rest => (digitsAfter (.digit v) rest).map fun (vs, whole) => (v :: vs, whole)

def value (digits : List Nat) : Nat :=
  digits.foldl (fun acc d => acc * 10 + d) 0

def splitSign : List Char → Bool × List Char
  | '-' :: rest => (true, rest)
  | '+' :: rest => (false, rest)
  | word => (false, word)

/-- The integer that a word is the numeral of. -/
def read (word : List Char) : Except NumeralFault Int :=
  let (negative, rest) := splitSign word
  match digitsAfter .other (rest.map Mark.of) with
  | none => .error (.form word)
  | some (digits, whole) =>
    if digitLimit < digits.length then .error (.tooLong digits.length)
    else if whole then .ok (if negative then -(value digits : Int) else value digits)
    else .error (.form word)

end Numeral

end SegmentFit
