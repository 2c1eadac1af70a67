/-!
# Code points — texts in which a surrogate may stand by itself

An escape in JSON text can name one half of a surrogate pair. Such a half is a code
point but no character, so a text that was read from there is a list of code points.
A string is the text of its characters, and stands for it wherever a text is asked for.

Texts are ordered by the numbers of their code points, which is also the order of
strings.
-/

namespace SegmentFit

/-- A code point: a character, or a surrogate. -/
inductive CodePoint where
  | char (c : Char)
  -- the surrogate that lies so far above U+D800
  | surrogate (offset : Fin 0x800)
  deriving DecidableEq, Repr

def CodePoint.toNat : CodePoint → Nat
  | .char c => c.toNat
  | .surrogate offset => 0xD800 + offset

def CodePoint.isSurrogate : CodePoint → Bool
  | .char _ => false
  | .surrogate _ => true

/-- The character of a code point; U+FFFD stands for a surrogate. -/
def CodePoint.shown : CodePoint → Char
  | .char c => c
  | .surrogate _ => '\ufffd'

abbrev CodeText := List CodePoint

namespace CodeText

def ofChars (chars : List Char) : CodeText :=
  chars.map .char

def ofString (s : String) : CodeText :=
  ofChars s.toList

instance : Coe String CodeText := ⟨ofString⟩

/-- A text as a string, with U+FFFD for each surrogate. -/
def shown (text : CodeText) : String :=
  String.ofList (text.map CodePoint.shown)

/-- Whether a text does not come after another one. -/
def le : CodeText → CodeText → Bool
  | [], _ => true
  | _ :: _, [] => false
  | a :: s, b :: t => decide (a.toNat < b.toNat) || (a.toNat == b.toNat && le s t)

@[simp] theorem shown_ofString (s : String) : shown (ofString s) = s := by
  have h : (CodePoint.shown ∘ CodePoint.char) = id := rfl
  simp [shown, ofString, ofChars, h]

end CodeText

end SegmentFit
