import SegmentFit.Bytes.Hex
import SegmentFit.Json.Basic
import SegmentFit.Text.Numeral

/-!
# Reading JSON text

`read` turns a text into a value, or says what is wrong and where. Blanks may stand
between the parts of a value and around it. Of members with one key the last counts, in
the place of the first. A number with a fraction or an exponent is read as the nearest
binary one, and `NaN`, `Infinity` and `-Infinity` are numbers too; an integer may not
have more digits than a numeral. Lists and objects may be nested up to a depth that is
given.

The readers work on the characters that are left. A step that descends or goes on
spends one unit of fuel, and `read` supplies two for each character, which no text
uses up.
-/

namespace SegmentFit.Json

inductive Complaint where
  | value
  | key
  | colon
  | comma
  | closingQuote
  | controlCharacter
  | escape
  | unicodeEscape
  | extraData
  | byteOrderMark
  deriving DecidableEq, Repr

/-- Why a text cannot be read. -/
inductive ReadFault where
  -- something is missing, with so many characters left from there on
  | missing (complaint : Complaint) (left : Nat)
  | overlong (digits : Nat)
  | deepList
  | deepObject
  deriving DecidableEq, Repr

def Complaint.text : Complaint → String
  | .value => "Expecting value"
  | .key => "Expecting property name enclosed in double quotes"
  | .colon => "Expecting ':' delimiter"
  | .comma => "Expecting ',' delimiter"
  | .closingQuote => "Unterminated string starting at"
  | .controlCharacter => "Invalid control character at"
  | .escape => "Invalid \\escape"
  | .unicodeEscape => "Invalid \\uXXXX escape"
  | .extraData => "Extra data"
  | .byteOrderMark => "Unexpected UTF-8 BOM (decode using utf-8-sig)"

def placeText (text : List Char) (left : Nat) : String :=
  let position := text.length - left
  let before := text.take position
  let line := before.count '\n' + 1
  let column := (before.reverse.takeWhile (· != '\n')).length + 1
  s!"line {line} column {column} (char {position})"

def ReadFault.message (text : List Char) : ReadFault → String
  | .missing complaint left => complaint.text ++ ": " ++ placeText text left
  | .overlong digits => Numeral.limitMessage digits
  | .deepList =>
    "maximum recursion depth exceeded while decoding a JSON array from a unicode string"
  | .deepObject =>
    "maximum recursion depth exceeded while decoding a JSON object from a unicode string"

/-- The blanks of JSON text. -/
def isGap (c : Char) : Bool :=
  c = ' ' || c = '\t' || c = '\n' || c = '\r'

def skipGap (text : List Char) : List Char :=
  text.dropWhile isGap

def unit? (a b c d : Char) : Option Nat := do
  return (((← Hex.value? a) * 16 + (← Hex.value? b)) * 16 + (← Hex.value? c)) * 16
    + (← Hex.value? d)

def unescaped? : Char → Option Char
  | '\x22' => some '\x22'
  | '\\' => some '\\'
  | '/' => some '/'
  | 'b' => some '\x08'
  | 'f' => some '\x0c'
  | 'n' => some '\n'
  | 'r' => some '\r'
  | 't' => some '\t'
  | _ => none

/-- The character of two surrogate units. -/
def joined (high low : Nat) : CodePoint :=
  .char (Char.ofNat (0x10000 + (high - 0xD800) * 0x400 + (low - 0xDC00)))

/-- The code point of one unit. -/
def single (unit : Nat) : CodePoint :=
  if h : 0xD800 ≤ unit ∧ unit < 0xE000 then .surrogate ⟨unit - 0xD800, by omega⟩
  else .char (Char.ofNat unit)

def isHigh (unit : Nat) : Bool := decide (0xD800 ≤ unit) && decide (unit < 0xDC00)

def isLow (unit : Nat) : Bool := decide (0xDC00 ≤ unit) && decide (unit < 0xE000)

/-- The text of a string up to its closing quote, and what follows. `start` is the text
from its opening quote on. -/
def readString (start : List Char) : List Char → Except ReadFault (CodeText × List Char)
  | [] => .error (.missing .closingQuote start.length)
  | '\x22' :: rest => .ok ([], rest)
  | ['\\'] => .error (.missing .closingQuote start.length)
  | '\\' :: 'u' :: a :: b :: c :: d :: e :: rest =>
    match unit? a b c d with
    | none => .error (.missing .unicodeEscape (rest.length + 6))
    | some unit =>
      if isHigh unit then
        match e, rest with
        | '\\', 'u' :: a' :: b' :: c' :: d' :: e' :: rest' =>
          match unit? a' b' c' d' with
          | none => .error (.missing .unicodeEscape (rest'.length + 6))
          | some second =>
            if isLow second then
              (readString start (e' :: rest')).map fun (cs, left) =>
                (joined unit second :: cs, left)
            else
              (readString start ('\\' :: 'u' :: a' :: b' :: c' :: d' :: e' :: rest')).map
                fun (cs, left) => (single unit :: cs, left)
        | e, rest =>
          (readString start (e :: rest)).map fun (cs, left) => (single unit :: cs, left)
      else
        (readString start (e :: rest)).map fun (cs, left) => (single unit :: cs, left)
  | '\\' :: 'u' :: rest => .error (.missing .unicodeEscape (rest.length + 1))
  | '\\' :: letter :: rest =>
    match unescaped? letter with
    | none => .error (.missing .escape (rest.length + 2))
    | some c => (readString start rest).map fun (cs, left) => (.char c :: cs, left)
  | c :: rest =>
    if c.toNat < 0x20 then .error (.missing .controlCharacter (rest.length + 1))
    else (readString start rest).map fun (cs, left) => (.char c :: cs, left)
termination_by text => text.length

def splitDigits (text : List Char) : List Char × List Char :=
  (text.takeWhile Char.isDigit, text.dropWhile Char.isDigit)

/-- The digits of the whole part of a number, and what follows: a zero, or digits that
start with none. -/
def readWhole? (text : List Char) : Option (List Char × List Char) :=
  match text with
  | '0' :: rest => some (['0'], rest)
  | c :: _ => if c.isDigit then some (splitDigits text) else none
  | [] => none

/-- The digits of a fraction, none if there is none, and what follows. -/
def readFraction (text : List Char) : List Char × List Char :=
  match text with
  | '.' :: rest =>
    let (digits, left) := splitDigits rest
    if digits.isEmpty then ([], text) else (digits, left)
  | _ => ([], text)

/-- The exponent of ten that is written at the start of a text, if one is, and what
follows. -/
def readExponent (text : List Char) : Option Int × List Char :=
  match text with
  | 'e' :: rest | 'E' :: rest =>
    let (negative, rest) := match rest with
      | '-' :: rest => (true, rest)
      | '+' :: rest => (false, rest)
      | _ => (false, rest)
    let (digits, left) := splitDigits rest
    if digits.isEmpty then (none, text)
    else
      let n : Int := Nat.ofDigitChars 10 digits 0
      (some (if negative then -n else n), left)
  | _ => (none, text)

/-- The number that is made up of a sign and the parts of its text. -/
def number (negative : Bool) (whole fraction : List Char) (exponent : Option Int) :
    Except ReadFault Json :=
  let digits := Nat.ofDigitChars 10 (whole ++ fraction) 0
  if fraction.isEmpty ∧ exponent.isNone then
    if Numeral.digitLimit < whole.length then .error (.overlong whole.length)
    else .ok (.int (if negative then -(digits : Int) else digits))
  else .ok (.real (Binary64.ofDecimal negative digits (exponent.getD 0 - fraction.length)))

def readNumber (text : List Char) : Except ReadFault (Json × List Char) :=
  let (negative, digits) := match text with
    | '-' :: rest => (true, rest)
    | _ => (false, text)
  match readWhole? digits with
  | none => .error (.missing .value text.length)
  | some (whole, rest) =>
    let (fraction, rest) := readFraction rest
    let (exponent, rest) := readExponent rest
    (number negative whole fraction exponent).map fun v => (v, rest)

def constants : List (List Char × Json) :=
  [(['n', 'u', 'l', 'l'], .null), (['t', 'r', 'u', 'e'], .bool true),
   (['f', 'a', 'l', 's', 'e'], .bool false), (['N', 'a', 'N'], .real .undefined),
   (['I', 'n', 'f', 'i', 'n', 'i', 't', 'y'], .real (.infinite false)),
   (['-', 'I', 'n', 'f', 'i', 'n', 'i', 't', 'y'], .real (.infinite true))]

def readConstant? (text : List Char) : Option (Json × List Char) :=
  constants.findSome? fun (name, v) =>
    if name.isPrefixOf text then some (v, text.drop name.length) else none

mutual

/-- The value at the start of a text, and what follows. `depth` is how deep lists and
objects may still be nested. -/
def readValue : Nat → Nat → List Char → Except ReadFault (Json × List Char)
  | 0, _, text => .error (.missing .value text.length)
  | fuel + 1, depth, text =>
    match text, depth with
    | '\x22' :: rest, _ =>
      (readString text rest).map fun (cs, left) => (.str cs, left)
    | '[' :: _, 0 => .error .deepList
    | '[' :: rest, depth + 1 =>
      match skipGap rest with
      | ']' :: rest => .ok (.arr [], rest)
      | rest => (readItems fuel depth rest).map fun (items, left) => (.arr items, left)
    | '\x7b' :: _, 0 => .error .deepObject
    | '\x7b' :: rest, depth + 1 =>
      match skipGap rest with
      | '\x7d' :: rest => .ok (.obj [], rest)
      | rest => (readMembers fuel depth [] rest).map fun (members, left) => (.obj members, left)
    | text, _ =>
      match readConstant? text with
      | some found => .ok found
      | none => readNumber text

def readItems : Nat → Nat → List Char → Except ReadFault (List Json × List Char)
  | 0, _, text => .error (.missing .value text.length)
  | fuel + 1, depth, text => do
    let (v, rest) ← readValue fuel depth text
    match skipGap rest with
    | ']' :: rest => return ([v], rest)
    | ',' :: rest =>
      let (items, left) ← readItems fuel depth (skipGap rest)
      return (v :: items, left)
    | rest => .error (.missing .comma rest.length)

/-- The members up to a closing brace, added to those read before, and what follows. -/
def readMembers : Nat → Nat → List (CodeText × Json) → List Char →
    Except ReadFault (List (CodeText × Json) × List Char)
  | 0, _, _, text => .error (.missing .key text.length)
  | fuel + 1, depth, members, text =>
    match text with
    | '\x22' :: rest => do
      let (key, rest) ← readString text rest
      match skipGap rest with
      | ':' :: rest =>
        let (v, rest) ← readValue fuel depth (skipGap rest)
        let members := put key v members
        match skipGap rest with
        | '\x7d' :: rest => return (members, rest)
        | ',' :: rest => readMembers fuel depth members (skipGap rest)
        | rest => .error (.missing .comma rest.length)
      | rest => .error (.missing .colon rest.length)
    | _ => .error (.missing .key text.length)

end

def read (depth : Nat) (text : List Char) : Except ReadFault Json :=
  match text with
  | '\ufeff' :: _ => .error (.missing .byteOrderMark text.length)
  | _ =>
    match readValue (2 * text.length + 2) depth (skipGap text) with
    | .error fault => .error fault
    | .ok (v, rest) =>
      match skipGap rest with
      | [] => .ok v
      | rest => .error (.missing .extraData rest.length)

end SegmentFit.Json
