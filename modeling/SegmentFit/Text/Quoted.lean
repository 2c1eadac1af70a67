import SegmentFit.Bytes.Hex
import SegmentFit.Text.CodePoint
import SegmentFit.Text.Printable

/-!
# Quoted text — how messages show a text or a character

A text is shown between single quotes, or between double quotes when it holds a
single quote and no double one. The quote in use and the backslash stand behind a
backslash, line feed, carriage return and tab have letters, and every other hidden
character is written by its code point: `\x` and two digits, `\u` and four, or `\U`
and eight, whichever is the shortest that fits. All else stands for itself.

In a text of code points a surrogate is hidden like any other that shows no mark.
-/

namespace SegmentFit.Text

def singleQuote : Char := '\x27'

def doubleQuote : Char := '\x22'

/-- The quote that a text is shown between. -/
def quoteFor (text : CodeText) : Char :=
  if text.contains (.char singleQuote) && !text.contains (.char doubleQuote) then doubleQuote
  else singleQuote

def codeEscape (code : Nat) : List Char :=
  if code < 0x100 then '\\' :: 'x' :: Hex.padded 2 code
  else if code < 0x10000 then '\\' :: 'u' :: Hex.padded 4 code
  else '\\' :: 'U' :: Hex.padded 8 code

def quotedChar (quote c : Char) : List Char :=
  if c = quote ∨ c = '\\' then ['\\', c]
  else if c = '\n' then ['\\', 'n']
  else if c = '\r' then ['\\', 'r']
  else if c = '\t' then ['\\', 't']
  else if isPrintable c then [c]
  else codeEscape c.toNat

def quotedPoint (quote : Char) : CodePoint → List Char
  | .char c => quotedChar quote c
  | .surrogate offset => codeEscape (CodePoint.surrogate offset).toNat

/-- A text of code points between quotes. -/
def quotedText (text : CodeText) : List Char :=
  let quote := quoteFor text
  quote :: text.flatMap (quotedPoint quote) ++ [quote]

def quoted (text : List Char) : List Char :=
  quotedText (CodeText.ofChars text)

def quotedString (text : String) : String :=
  String.ofList (quoted text.toList)

def quotedCharacter (c : Char) : String :=
  String.ofList (quoted [c])

/-- A list of texts, each between quotes, in square brackets. -/
def quotedList (texts : List CodeText) : String :=
  String.ofList ('[' :: ((texts.map quotedText).intersperse [',', ' ']).flatten ++ [']'])

example : quotedString "a\tb" = "'a\\tb'" := by decide +kernel
example : quotedString "it's" = "\"it's\"" := by decide +kernel

end SegmentFit.Text
