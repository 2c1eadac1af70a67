import SegmentFit.Json.Printer
import SegmentFit.Json.Reader

/-!
# Strings in JSON text — every escape is read back

A character is written as itself, behind a backslash, or by its 16-bit units. Whichever way
it is, the reader of strings takes it off the start of a text and goes on behind it
(`readString_escapedChar`), provided that something follows: inside a string the closing quote
does. So the string is read back up to its closing quote (`readString_escaped`).

All that is written is printable ASCII (`printable_escapedChar`).
-/

namespace SegmentFit

/-! ## Hexadecimal units -/

theorem Hex.value?_digit {v : Nat} (hv : v < 16) : Hex.value? (Hex.digit v) = some v := by
  have hall : ∀ v < 16, Hex.value? (Hex.digit v) = some v := by decide
  exact hall v hv

namespace Json

/-- Four digits are written for sixteen bits, the highest first. -/
theorem padded_four (n : Nat) :
    Hex.padded 4 n = [Hex.digit (n / 16 / 16 / 16 % 16), Hex.digit (n / 16 / 16 % 16),
      Hex.digit (n / 16 % 16), Hex.digit (n % 16)] :=
  rfl

/-- The four digits of a unit are read back. -/
theorem unit?_digits {n : Nat} (hn : n < 0x10000) :
    unit? (Hex.digit (n / 16 / 16 / 16 % 16)) (Hex.digit (n / 16 / 16 % 16))
      (Hex.digit (n / 16 % 16)) (Hex.digit (n % 16)) = some n := by
  have hlow (m : Nat) : m % 16 < 16 := Nat.mod_lt m (by decide)
  rw [unit?, Hex.value?_digit (hlow _), Hex.value?_digit (hlow _), Hex.value?_digit (hlow _),
    Hex.value?_digit (hlow _)]
  show some (((n / 16 / 16 / 16 % 16 * 16 + n / 16 / 16 % 16) * 16 + n / 16 % 16) * 16 + n % 16)
    = some n
  congr 1
  omega

/-! ## One character -/

/-- What was read, with a code point in front. -/
def inFront (p : CodePoint) (read : CodeText × List Char) : CodeText × List Char :=
  (p :: read.1, read.2)

section Reading

variable (start : List Char) {rest : List Char}

/-- A character that needs no escape is read as it is. -/
theorem readString_plain {c : Char} (hquote : c ≠ '\x22') (hslash : c ≠ '\\')
    (hcontrol : 0x20 ≤ c.toNat) :
    readString start (c :: rest) = (readString start rest).map (inFront (.char c)) := by
  rw [readString, if_neg (Nat.not_lt.mpr hcontrol)]
  · rfl
  · exact hquote
  · exact fun h _ => hslash h
  · exact fun _ _ _ _ _ _ h _ => hslash h
  · exact fun _ h _ => hslash h
  · exact fun _ _ h _ => hslash h

/-- A short escape is read as the character that it names. -/
theorem readString_letter {letter c : Char} (hunit : letter ≠ 'u')
    (hletter : unescaped? letter = some c) :
    readString start ('\\' :: letter :: rest)
      = (readString start rest).map (inFront (.char c)) := by
  rw [readString, hletter]
  · rfl
  · exact fun _ _ _ _ _ _ h _ => hunit h
  · exact hunit

/-- A unit that is no half of a pair stands for its code point. -/
theorem readString_unit {n : Nat} (hn : n < 0x10000) (hhigh : isHigh n = false)
    (hrest : rest ≠ []) :
    readString start (unitEscape n ++ rest)
      = (readString start rest).map (inFront (single n)) := by
  obtain ⟨e, more, rfl⟩ := List.exists_cons_of_ne_nil hrest
  rw [unitEscape, padded_four]
  show readString start ('\\' :: 'u' :: _ :: _ :: _ :: _ :: e :: more) = _
  rw [readString, unit?_digits hn]
  dsimp only
  rw [hhigh, if_neg Bool.false_ne_true]
  rfl

/-- Two halves of a pair stand for their character. -/
theorem readString_pair {high low : Nat} (hhigh : isHigh high = true) (hlow : isLow low = true)
    (hrest : rest ≠ []) :
    readString start (unitEscape high ++ unitEscape low ++ rest)
      = (readString start rest).map (inFront (joined high low)) := by
  have hunits : high < 0x10000 ∧ low < 0x10000 := by
    simp only [isHigh, isLow, Bool.and_eq_true, decide_eq_true_eq] at hhigh hlow
    omega
  obtain ⟨e, more, rfl⟩ := List.exists_cons_of_ne_nil hrest
  rw [unitEscape, unitEscape, padded_four, padded_four]
  show readString start ('\\' :: 'u' :: _ :: _ :: _ :: _ :: '\\' :: 'u' :: _ :: _ :: _ :: _
    :: e :: more) = _
  rw [readString, unit?_digits hunits.1]
  dsimp only
  rw [hhigh, if_pos rfl]
  simp only [unit?_digits hunits.2]
  rw [hlow, if_pos rfl]
  rfl

end Reading

/-! ## Which escape a character has -/

/-- How a character is written: as itself, by a letter, by its unit, or by two of them. -/
inductive Escape (c : Char) : List Char → Prop where
  | plain (hquote : c ≠ '\x22') (hslash : c ≠ '\\') (hlow : 0x20 ≤ c.toNat)
      (hhigh : c.toNat < 0x7F) : Escape c [c]
  | letter (letter : Char) (hunit : letter ≠ 'u') (hletter : unescaped? letter = some c)
      (hplain : 0x20 ≤ letter.toNat ∧ letter.toNat < 0x7F) : Escape c ['\\', letter]
  | unit (hunit : c.toNat < 0x10000) : Escape c (unitEscape c.toNat)
  | pair (hpair : 0x10000 ≤ c.toNat) :
      Escape c (unitEscape (0xD800 + (c.toNat - 0x10000) / 0x400)
        ++ unitEscape (0xDC00 + (c.toNat - 0x10000) % 0x400))

/-- **What is written for a character is an escape of it**, or the character itself. -/
theorem escape_escapedChar (c : Char) : Escape c (escapedChar c) := by
  rw [escapedChar]
  split
  · next hquoted =>
    rcases hquoted with rfl | rfl
    · exact .letter '\x22' (by decide) rfl (by decide)
    · exact .letter '\\' (by decide) rfl (by decide)
  next hquoted =>
  obtain ⟨hquote, hslash⟩ := not_or.mp hquoted
  split
  · next h => exact h ▸ .letter 'n' (by decide) rfl (by decide)
  split
  · next h => exact h ▸ .letter 'r' (by decide) rfl (by decide)
  split
  · next h => exact h ▸ .letter 't' (by decide) rfl (by decide)
  split
  · next h => exact h ▸ .letter 'b' (by decide) rfl (by decide)
  split
  · next h => exact h ▸ .letter 'f' (by decide) rfl (by decide)
  split
  · next hplain => exact .plain hquote hslash hplain.1 hplain.2
  split
  · next hunit => exact .unit hunit
  · next hunit => exact .pair (Nat.not_lt.mp hunit)

/-- The code point of a character is no surrogate, and not too large. -/
theorem toNat_valid (c : Char) :
    c.toNat < 0xD800 ∨ 0xDFFF < c.toNat ∧ c.toNat < 0x110000 :=
  c.valid

/-- A unit that is no half of a pair is a character. -/
theorem single_toNat (c : Char) : single c.toNat = .char c := by
  have hno : ¬ (0xD800 ≤ c.toNat ∧ c.toNat < 0xE000) := by
    have hvalid := toNat_valid c
    omega
  rw [single, dif_neg hno, Char.ofNat_toNat]

/-- The two halves of a character beyond the first plane are joined to it again. -/
theorem joined_halves {c : Char} (h : 0x10000 ≤ c.toNat) :
    joined (0xD800 + (c.toNat - 0x10000) / 0x400) (0xDC00 + (c.toNat - 0x10000) % 0x400)
      = .char c := by
  have hcode : 0x10000 + (0xD800 + (c.toNat - 0x10000) / 0x400 - 0xD800) * 0x400
      + (0xDC00 + (c.toNat - 0x10000) % 0x400 - 0xDC00) = c.toNat := by
    omega
  rw [joined, hcode, Char.ofNat_toNat]

/-- **An escaped character is read back**, and the reader goes on behind it. -/
theorem readString_escapedChar (start : List Char) (c : Char) {rest : List Char}
    (hrest : rest ≠ []) :
    readString start (escapedChar c ++ rest)
      = (readString start rest).map (inFront (.char c)) := by
  have hvalid := toNat_valid c
  generalize htext : escapedChar c = text
  have hescape : Escape c text := htext ▸ escape_escapedChar c
  cases hescape with
  | plain hquote hslash hlow hhigh => exact readString_plain start hquote hslash hlow
  | letter letter hunit hletter hplain => exact readString_letter start hunit hletter
  | unit hunit =>
      have hhigh : isHigh c.toNat = false := by
        rw [isHigh, Bool.and_eq_false_iff, decide_eq_false_iff_not, decide_eq_false_iff_not]
        omega
      rw [readString_unit start hunit hhigh hrest, single_toNat]
  | pair hpair =>
      have hhigh : isHigh (0xD800 + (c.toNat - 0x10000) / 0x400) = true := by
        rw [isHigh, Bool.and_eq_true, decide_eq_true_eq, decide_eq_true_eq]
        omega
      have hlow : isLow (0xDC00 + (c.toNat - 0x10000) % 0x400) = true := by
        rw [isLow, Bool.and_eq_true, decide_eq_true_eq, decide_eq_true_eq]
        omega
      rw [readString_pair start hhigh hlow hrest, joined_halves hpair]

/-! ## Whole strings -/

/-- **A string is read back** up to its closing quote. -/
theorem readString_escaped (start chars rest : List Char) :
    readString start ((CodeText.ofChars chars).flatMap escapedPoint ++ Text.doubleQuote :: rest)
      = .ok (CodeText.ofChars chars, rest) := by
  induction chars with
  | nil =>
      show readString start ('\x22' :: rest) = _
      rw [readString]
      rfl
  | cons c chars ih =>
      show readString start ((escapedChar c ++ (CodeText.ofChars chars).flatMap escapedPoint)
        ++ Text.doubleQuote :: rest) = _
      rw [List.append_assoc, readString_escapedChar start c (by simp), ih]
      rfl

/-! ## Printable text -/

/-- What a test shows of every character of a text. -/
theorem forall_of_all {p : Char → Prop} [DecidablePred p] {text : List Char}
    (h : text.all (fun c => decide (p c)) = true) : ∀ c ∈ text, p c := by
  intro c hc
  exact of_decide_eq_true (List.all_eq_true.mp h c hc)

/-- A character of ASCII that is no control character. -/
def Printable (c : Char) : Prop :=
  0x20 ≤ c.toNat ∧ c.toNat < 0x7F

instance (c : Char) : Decidable (Printable c) :=
  inferInstanceAs (Decidable (_ ∧ _))

theorem printable_digit {v : Nat} (hv : v < 16) : Printable (Hex.digit v) := by
  have hall : ∀ v < 16, Printable (Hex.digit v) := by decide
  exact hall v hv

theorem printable_unitEscape (n : Nat) : ∀ d ∈ unitEscape n, Printable d := by
  have hlow (m : Nat) : Printable (Hex.digit (m % 16)) := printable_digit (Nat.mod_lt m (by decide))
  rw [unitEscape, padded_four]
  simp only [List.forall_mem_cons, hlow, true_and]
  exact ⟨by decide, by decide, nofun⟩

theorem printable_escapedChar (c : Char) : ∀ d ∈ escapedChar c, Printable d := by
  generalize htext : escapedChar c = text
  have hescape : Escape c text := htext ▸ escape_escapedChar c
  cases hescape with
  | plain hquote hslash hlow hhigh => exact List.forall_mem_singleton.mpr ⟨hlow, hhigh⟩
  | letter letter hunit hletter hplain =>
      exact List.forall_mem_cons.mpr ⟨by decide, List.forall_mem_singleton.mpr hplain⟩
  | unit hunit => exact printable_unitEscape _
  | pair hpair =>
      exact List.forall_mem_append.mpr ⟨printable_unitEscape _, printable_unitEscape _⟩

/-- What is written for a text can be printed, whatever the text. -/
theorem printable_escaped (text : CodeText) : ∀ d ∈ escaped text, Printable d := by
  have hquote : Printable Text.doubleQuote := by decide
  have hpoint (p : CodePoint) : ∀ d ∈ escapedPoint p, Printable d := by
    cases p with
    | char c => exact printable_escapedChar c
    | surrogate offset => exact printable_unitEscape _
  rw [escaped, List.cons_append, List.forall_mem_cons, List.forall_mem_append,
    List.forall_mem_singleton]
  refine ⟨hquote, fun d hd => ?_, hquote⟩
  obtain ⟨p, -, hd⟩ := List.mem_flatMap.mp hd
  exact hpoint p d hd

end Json

end SegmentFit
