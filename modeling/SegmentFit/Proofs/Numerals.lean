import Mathlib.Algebra.Group.Nat.Defs
import Mathlib.Data.Nat.Digits.Defs
import SegmentFit.Case
import SegmentFit.Json.Printer
import SegmentFit.Json.Reader

/-!
# Numerals — which words are read, and that the decimal of an integer is

A word is read as an integer exactly if it is a numeral of it: perhaps a sign, and decimal digits
of any script, single underscores between them, no more of them than are allowed
(`Numeral.read_eq_ok_iff`).

An integer is written as its decimal digits, behind a sign if it is negative
(`Json.decimal`). There are two readers: of words, which allow for more than is ever written
(`Numeral.read`), and of JSON text, which stops where the number ends (`Json.readNumber`).
Each gives the integer back if it has no more digits than a numeral may have, the second one
provided that nothing follows which would go on with the number (`Json.EndsNumber`). An integer that
was read from a word has no more digits than that (`Numeral.natAbs_lt_of_read`).
-/

namespace SegmentFit

/-! ## Digits -/

/-- Only zero has a decimal that starts with a zero. -/
theorem toDigits_head?_ne {n : Nat} (hn : 0 < n) : (Nat.toDigits 10 n).head? ≠ some '0' := by
  induction n using Nat.strongRecOn with
  | _ n ih =>
      rcases Nat.lt_or_ge n 10 with hsmall | hlarge
      · rw [Nat.toDigits_of_lt_base hsmall, List.head?_cons]
        intro hzero
        have hvalue : n.digitChar.toNat = '0'.toNat := congrArg Char.toNat (Option.some.inj hzero)
        rw [Nat.toNat_digitChar_of_lt_ten hsmall] at hvalue
        have hcode : '0'.toNat = 48 := rfl
        omega
      · -- the first digit is that of the number without its last one
        have hfewer := ih (n / 10) (by omega) (by omega)
        rw [Nat.toDigits_of_base_le (by decide) hlarge, List.head?_append]
        cases hhead : (Nat.toDigits 10 (n / 10)).head? with
        | none => exact absurd (List.head?_eq_none_iff.mp hhead) Nat.toDigits_ne_nil
        | some c =>
            rw [hhead] at hfewer
            exact hfewer

theorem isDigit_of_mem_toDigits {n : Nat} {c : Char} (h : c ∈ Nat.toDigits 10 n) :
    c.isDigit = true :=
  Nat.isDigit_of_mem_toDigits (by decide) (by decide) h

/-- A number has no more digits than a numeral may have exactly if it is below that power of ten. -/
theorem length_toDigits_le_iff {n : Nat} :
    (Nat.toDigits 10 n).length ≤ Numeral.digitLimit ↔ n < 10 ^ Numeral.digitLimit :=
  Nat.length_toDigits_le_iff (by decide) (by decide)

theorem code_of_isDigit {c : Char} (h : c.isDigit = true) : 48 ≤ c.toNat ∧ c.toNat ≤ 57 := by
  rw [Char.isDigit, Bool.and_eq_true, decide_eq_true_eq, decide_eq_true_eq] at h
  exact h

theorem ne_of_isDigit {c d : Char} (h : c.isDigit = true) (hd : d.isDigit = false) : c ≠ d := by
  rintro rfl
  rw [hd] at h
  exact Bool.false_ne_true h

/-- A decimal starts with no sign. -/
theorem toDigits_append_head?_ne {d : Char} (hd : d.isDigit = false) (n : Nat) (rest : List Char) :
    (Nat.toDigits 10 n ++ rest).head? ≠ some d := by
  cases hdigits : Nat.toDigits 10 n with
  | nil => exact absurd hdigits Nat.toDigits_ne_nil
  | cons c more =>
      have hmem : c ∈ Nat.toDigits 10 n := by
        rw [hdigits]
        exact List.mem_cons_self
      exact fun heq => ne_of_isDigit (isDigit_of_mem_toDigits hmem) hd (Option.some.inj heq)

/-! ## Words -/

namespace Numeral

/-- The value of a decimal digit is its distance from the code of zero. -/
theorem digitValue?_of_isDigit {c : Char} (h : c.isDigit = true) :
    Text.digitValue? c = some (c.toNat - 48) := by
  obtain ⟨hlow, hhigh⟩ := code_of_isDigit h
  have hzero : Text.zeroDigits.find? (fun base => decide (base ≤ c.toNat)
      && decide (c.toNat ≤ base + 9)) = some 48 := by
    refine List.find?_cons_of_pos ?_
    rw [Bool.and_eq_true, decide_eq_true_eq, decide_eq_true_eq]
    exact ⟨hlow, hhigh⟩
  rw [Text.digitValue?, hzero]
  rfl

theorem mark_of_isDigit {c : Char} (h : c.isDigit = true) : Mark.of c = .digit (c.toNat - 48) := by
  rw [Mark.of, if_neg (ne_of_isDigit h rfl), digitValue?_of_isDigit h]

/-- A word of digits, behind a first one. -/
theorem digitsAfter_digit {digits : List Char} (h : ∀ c ∈ digits, c.isDigit = true) (v : Nat) :
    digitsAfter (.digit v) (digits.map Mark.of)
      = some (digits.map fun c => c.toNat - 48, true) := by
  induction digits generalizing v with
  | nil => rfl
  | cons c rest ih =>
      obtain ⟨hc, hrest⟩ := List.forall_mem_cons.mp h
      rw [List.map_cons, mark_of_isDigit hc, digitsAfter, ih hrest]
      rfl

/-- A text of digits is read as their values, and ends with a digit. -/
theorem digitsAfter_digits {digits : List Char} (h : ∀ c ∈ digits, c.isDigit = true)
    (hne : digits ≠ []) :
    digitsAfter .other (digits.map Mark.of) = some (digits.map fun c => c.toNat - 48, true) := by
  cases digits with
  | nil => exact absurd rfl hne
  | cons c rest =>
      obtain ⟨hc, hrest⟩ := List.forall_mem_cons.mp h
      rw [List.map_cons, mark_of_isDigit hc, digitsAfter, digitsAfter_digit hrest]
      rfl

/-- The value of a text of digits is the number that they spell. -/
theorem value_digits (digits : List Char) :
    value (digits.map fun c => c.toNat - 48) = Nat.ofDigitChars 10 digits 0 := by
  rw [value, List.foldl_map, Nat.ofDigitChars_eq_foldl]
  congr 1
  funext sum c
  rw [Nat.mul_comm]
  rfl

/-- A text without a sign is read from its start. -/
theorem splitSign_digits {digits : List Char} (hminus : digits.head? ≠ some '-')
    (hplus : digits.head? ≠ some '+') : splitSign digits = (false, digits) := by
  unfold splitSign
  split
  · exact absurd rfl hminus
  · exact absurd rfl hplus
  · rfl

/-- A word of a sign and the decimal of a number. -/
theorem read_of_splitSign {word : List Char} {negative : Bool} {n : Nat}
    (hsign : splitSign word = (negative, Nat.toDigits 10 n)) (h : n < 10 ^ digitLimit) :
    read word = .ok (if negative then -(n : Int) else n) := by
  have hmarks := digitsAfter_digits (fun _ => isDigit_of_mem_toDigits (n := n)) Nat.toDigits_ne_nil
  have hlength : ¬ digitLimit < ((Nat.toDigits 10 n).map fun c => c.toNat - 48).length := by
    rw [List.length_map]
    exact Nat.not_lt.mpr (length_toDigits_le_iff.mpr h)
  rw [read, hsign]
  dsimp only
  rw [hmarks]
  dsimp only
  rw [if_neg hlength, if_pos rfl, value_digits, Nat.ofDigitChars_ten_toDigits]

/-- **The decimal of an integer is its numeral**, unless it has too many digits. -/
theorem read_decimal {n : Int} (h : n.natAbs < 10 ^ digitLimit) :
    read (Json.decimal n) = .ok n := by
  have hunsigned (d : Char) (hd : d.isDigit = false) :
      (Nat.toDigits 10 n.natAbs).head? ≠ some d := by
    have hne := toDigits_append_head?_ne hd n.natAbs []
    rw [List.append_nil] at hne
    exact hne
  rw [Json.decimal]
  by_cases hneg : n < 0
  · have hvalue : -(n.natAbs : Int) = n := by omega
    have hsign : splitSign ('-' :: Nat.toDigits 10 n.natAbs)
        = (true, Nat.toDigits 10 n.natAbs) := rfl
    rw [if_pos hneg, read_of_splitSign hsign h, if_pos rfl, hvalue]
  · have hvalue : (n.natAbs : Int) = n := by omega
    have hsign := splitSign_digits (hunsigned '-' rfl) (hunsigned '+' rfl)
    rw [if_neg hneg, read_of_splitSign hsign h, if_neg Bool.false_ne_true, hvalue]

/-! ### Which words are numerals -/

/-- Decimal digits with their values, with a single underscore between some of them. -/
inductive Digits : List Char → List Nat → Prop where
  | last {c : Char} {v : Nat} (hc : Text.digitValue? c = some v) : Digits [c] [v]
  | next {c : Char} {v : Nat} (hc : Text.digitValue? c = some v) {text : List Char}
      {digits : List Nat} (hmore : Digits text digits) : Digits (c :: text) (v :: digits)
  | apart {c : Char} {v : Nat} (hc : Text.digitValue? c = some v) {text : List Char}
      {digits : List Nat} (hmore : Digits text digits) : Digits (c :: '_' :: text) (v :: digits)

/-- A numeral of an integer: a sign or none, and behind it digits, but not too many. -/
inductive Spells : List Char → Int → Prop where
  | unsigned {text : List Char} {digits : List Nat} (htext : Digits text digits)
      (hlength : digits.length ≤ digitLimit) : Spells text (value digits)
  | plus {text : List Char} {digits : List Nat} (htext : Digits text digits)
      (hlength : digits.length ≤ digitLimit) : Spells ('+' :: text) (value digits)
  | minus {text : List Char} {digits : List Nat} (htext : Digits text digits)
      (hlength : digits.length ≤ digitLimit) : Spells ('-' :: text) (-(value digits : Int))

/-- A mark is a digit exactly if the character has that value, in any script. -/
theorem mark_eq_digit_iff {c : Char} {v : Nat} :
    Mark.of c = .digit v ↔ Text.digitValue? c = some v := by
  have hunderscore : Text.digitValue? '_' = none := by decide
  rw [Mark.of]
  by_cases hc : c = '_'
  · rw [if_pos hc, hc, hunderscore]
    exact iff_of_false nofun nofun
  · rw [if_neg hc]
    cases Text.digitValue? c <;> simp

/-- The one character that is read as a separator is the underscore. -/
theorem mark_eq_underscore_iff {c : Char} : Mark.of c = .underscore ↔ c = '_' := by
  rw [Mark.of]
  by_cases hc : c = '_'
  · rw [if_pos hc]
    exact iff_of_true rfl hc
  · rw [if_neg hc]
    cases Text.digitValue? c <;> simp [hc]

/-- A digit is taken whatever came before it. -/
theorem digitsAfter_cons_digit (before : Mark) (v : Nat) (marks : List Mark) :
    digitsAfter before (.digit v :: marks)
      = (digitsAfter (.digit v) marks).map fun found => (v :: found.1, found.2) := by
  cases before <;> rfl

/-- **What spells digits is read as them**, whatever came before. -/
theorem Digits.digitsAfter_eq {text : List Char} {digits : List Nat} (h : Digits text digits)
    (before : Mark) : digitsAfter before (text.map Mark.of) = some (digits, true) := by
  induction h generalizing before with
  | last hc =>
      rw [List.map_cons, mark_eq_digit_iff.mpr hc, digitsAfter_cons_digit]
      rfl
  | next hc hmore ih =>
      rw [List.map_cons, mark_eq_digit_iff.mpr hc, digitsAfter_cons_digit, ih]
      rfl
  | apart hc hmore ih =>
      have hunderscore : Mark.of '_' = .underscore := rfl
      rw [List.map_cons, List.map_cons, mark_eq_digit_iff.mpr hc, digitsAfter_cons_digit,
        hunderscore, digitsAfter, ih]
      rfl

/-- What is read behind a digit goes on with it; behind anything else it starts with one. -/
theorem digits_of_digitsAfter {text : List Char} {before : Mark} {digits : List Nat}
    (h : digitsAfter before (text.map Mark.of) = some (digits, true)) :
    (∀ c v, Text.digitValue? c = some v → before = .digit v → Digits (c :: text) (v :: digits))
      ∧ ((∀ v, before ≠ .digit v) → Digits text digits) := by
  induction text generalizing before digits with
  | nil =>
      cases before with
      | digit v =>
          obtain rfl : [] = digits := (Prod.mk.inj (Option.some.inj h)).1
          refine ⟨?_, fun hne => absurd rfl (hne v)⟩
          intro c v' hc hv
          exact .last hc
      | underscore => exact nomatch h
      | other => exact nomatch h
  | cons d rest ih =>
      rw [List.map_cons] at h
      cases hmark : Mark.of d with
      | digit u =>
          have hd : Text.digitValue? d = some u := mark_eq_digit_iff.mp hmark
          rw [hmark, digitsAfter_cons_digit] at h
          obtain ⟨⟨more, whole⟩, hmore, heq⟩ := Option.map_eq_some_iff.mp h
          obtain ⟨rfl, rfl⟩ := Prod.mk.inj heq
          have hdigits := (ih hmore).1 d u hd rfl
          exact ⟨fun c v hc hv => .next hc hdigits, fun _ => hdigits⟩
      | underscore =>
          have hd : d = '_' := mark_eq_underscore_iff.mp hmark
          rw [hmark] at h
          cases before with
          | digit v =>
              rw [digitsAfter] at h
              have hdigits := (ih h).2 nofun
              rw [hd]
              exact ⟨fun c v hc hv => .apart hc hdigits, fun hne => absurd rfl (hne v)⟩
          | underscore => exact nomatch h
          | other => exact nomatch h
      | other =>
          rw [hmark] at h
          cases before <;> exact nomatch h

/-- At the start of a word the reader accepts exactly the texts that spell digits. -/
theorem digitsAfter_other_iff {text : List Char} {digits : List Nat} :
    digitsAfter .other (text.map Mark.of) = some (digits, true) ↔ Digits text digits :=
  ⟨fun h => (digits_of_digitsAfter h).2 nofun, fun h => h.digitsAfter_eq .other⟩

/-- Digits start with no sign. -/
theorem Digits.head?_ne {text : List Char} {digits : List Nat} (h : Digits text digits) {d : Char}
    (hd : Text.digitValue? d = none) : text.head? ≠ some d := by
  have hne {c : Char} {v : Nat} (hc : Text.digitValue? c = some v) : some c ≠ some d := by
    rintro ⟨⟩
    exact nomatch hc.symm.trans hd
  cases h with
  | last hc => exact hne hc
  | next hc hmore => exact hne hc
  | apart hc hmore => exact hne hc

/-- A word is read as a numeral, known by its sign and its digits. -/
theorem read_eq_ok_iff_digits {word : List Char} {n : Int} :
    read word = .ok n ↔ ∃ digits, Digits (splitSign word).2 digits
      ∧ digits.length ≤ digitLimit
      ∧ n = if (splitSign word).1 then -(value digits : Int) else value digits := by
  have hdigits {digits : List Nat} :
      digitsAfter .other ((splitSign word).2.map Mark.of) = some (digits, true)
        ↔ Digits (splitSign word).2 digits :=
    digitsAfter_other_iff
  rw [read]
  dsimp only
  cases hafter : digitsAfter .other ((splitSign word).2.map Mark.of) with
  | none =>
      refine iff_of_false nofun ?_
      rintro ⟨digits, hread, -⟩
      exact nomatch hafter.symm.trans (hdigits.mpr hread)
  | some found =>
      obtain ⟨digits, whole⟩ := found
      have hunique {digits' : List Nat} (h : Digits (splitSign word).2 digits') :
          digits = digits' ∧ whole = true :=
        Prod.mk.inj (Option.some.inj (hafter.symm.trans (hdigits.mpr h)))
      dsimp only
      constructor
      · intro h
        split at h
        · exact nomatch h
        · next hlength =>
          cases whole with
          | false => exact nomatch h
          | true => exact ⟨digits, hdigits.mp hafter, Nat.not_lt.mp hlength, (Except.ok.inj h).symm⟩
      · rintro ⟨digits', hread, hlength, rfl⟩
        obtain ⟨rfl, rfl⟩ := hunique hread
        rw [if_neg (Nat.not_lt.mpr hlength), if_pos rfl]

/-- **A word is read as an integer** exactly if it is a numeral of it. -/
theorem read_eq_ok_iff {word : List Char} {n : Int} : read word = .ok n ↔ Spells word n := by
  rw [read_eq_ok_iff_digits]
  constructor
  · rintro ⟨digits, htext, hlength, rfl⟩
    unfold splitSign at htext ⊢
    split at htext
    · exact .minus htext hlength
    · exact .plus htext hlength
    · exact .unsigned htext hlength
  · intro h
    cases h with
    | @unsigned text digits htext hlength =>
        have hsign := splitSign_digits (htext.head?_ne rfl) (htext.head?_ne rfl)
        rw [hsign]
        exact ⟨digits, htext, hlength, rfl⟩
    | @plus text digits htext hlength => exact ⟨digits, htext, hlength, rfl⟩
    | @minus text digits htext hlength => exact ⟨digits, htext, hlength, rfl⟩

/-! ### How great a numeral is -/

/-- The numbers that a solve counts have fewer digits than a numeral may have. -/
theorem lt_digitLimit {n : Nat} (h : n < 2 ^ 128) : n < 10 ^ digitLimit :=
  calc n < 2 ^ 128 := h
    _ ≤ 10 ^ 128 := Nat.pow_le_pow_left (by decide) 128
    _ ≤ 10 ^ digitLimit := Nat.pow_le_pow_right (by decide) (by decide)

/-- The value of digits is the number that they stand for in base 10. -/
theorem value_eq_ofDigits (digits : List Nat) : value digits = Nat.ofDigits 10 digits.reverse := by
  rw [Nat.ofDigits_eq_foldr, List.foldr_reverse, value]
  simp only [Nat.cast_id, Nat.mul_comm, Nat.add_comm]

/-- A number has no more digits than were read. -/
theorem Digits.value_lt {text : List Char} {digits : List Nat} (h : Digits text digits) :
    value digits < 10 ^ digits.length := by
  have hdigit {c : Char} {v : Nat} (hc : Text.digitValue? c = some v) : v < 10 :=
    Nat.lt_succ_of_le (Text.digitValue?_le hc)
  have hdigits : ∀ v ∈ digits, v < 10 := by
    induction h with
    | last hc => exact List.forall_mem_singleton.mpr (hdigit hc)
    | next hc hmore ih => exact List.forall_mem_cons.mpr ⟨hdigit hc, ih⟩
    | apart hc hmore ih => exact List.forall_mem_cons.mpr ⟨hdigit hc, ih⟩
  rw [value_eq_ofDigits, ← List.length_reverse]
  exact Nat.ofDigits_lt_base_pow_length (by decide) fun v hv => hdigits v (List.mem_reverse.mp hv)

/-- An integer that was read can be written as JSON text, and read back. -/
theorem natAbs_lt_of_read {word : List Char} {n : Int} (h : read word = .ok n) :
    n.natAbs < 10 ^ digitLimit := by
  obtain ⟨digits, htext, hlength, rfl⟩ := read_eq_ok_iff_digits.mp h
  have hvalue : value digits < 10 ^ digitLimit :=
    Nat.lt_of_lt_of_le htext.value_lt (Nat.pow_le_pow_right (by decide) hlength)
  split
  · rw [Int.natAbs_neg, Int.natAbs_natCast]
    exact hvalue
  · rw [Int.natAbs_natCast]
    exact hvalue

end Numeral

theorem toList_toString (n : Int) : (toString n).toList = Json.decimal n := by
  rw [Json.decimal]
  cases n with
  | ofNat m =>
      show (Nat.repr m).toList = _
      rw [Nat.toList_repr]
      rfl
  | negSucc m =>
      show ("-" ++ Nat.repr (m + 1)).toList = _
      rw [String.toList_append, Nat.toList_repr, if_pos (Int.negSucc_lt_zero m)]
      rfl

/-! ## Numbers in JSON text -/

namespace Json

/-- A text does not go on with the number before it. -/
def EndsNumber (rest : List Char) : Prop :=
  ∀ c, rest.head? = some c → c.isDigit = false ∧ c ≠ '.' ∧ c ≠ 'e' ∧ c ≠ 'E'

/-- A number ends before any character that could not carry it on. -/
theorem endsNumber_cons {c : Char} (rest : List Char)
    (h : c.isDigit = false ∧ c ≠ '.' ∧ c ≠ 'e' ∧ c ≠ 'E') : EndsNumber (c :: rest) := by
  intro d hd
  rw [← Option.some.inj hd]
  exact h

section Parts

variable {digits rest : List Char}

/-- Digits are split off up to the end of the number. -/
theorem splitDigits_append (hdigits : ∀ c ∈ digits, c.isDigit = true) (hrest : EndsNumber rest) :
    splitDigits (digits ++ rest) = (digits, rest) := by
  rw [splitDigits, List.takeWhile_append_of_pos hdigits, List.dropWhile_append_of_pos hdigits]
  cases rest with
  | nil => rw [List.takeWhile_nil, List.append_nil, List.dropWhile_nil]
  | cons c rest =>
      have hc : ¬ c.isDigit = true := Bool.eq_false_iff.mp (hrest c rfl).1
      rw [List.takeWhile_cons_of_neg hc, List.append_nil, List.dropWhile_cons_of_neg hc]

/-- The whole part of a number is read back in full. -/
theorem readWhole?_toDigits (n : Nat) (hrest : EndsNumber rest) :
    readWhole? (Nat.toDigits 10 n ++ rest) = some (Nat.toDigits 10 n, rest) := by
  rcases Nat.eq_zero_or_pos n with rfl | hn
  · rfl
  · have hsplit := splitDigits_append (fun c hc => isDigit_of_mem_toDigits (n := n) hc) hrest
    have hhead := toDigits_head?_ne hn
    cases hdigits : Nat.toDigits 10 n with
    | nil => exact absurd hdigits Nat.toDigits_ne_nil
    | cons c more =>
        rw [hdigits] at hsplit hhead
        have hc : c.isDigit = true := by
          refine isDigit_of_mem_toDigits (n := n) ?_
          rw [hdigits]
          exact List.mem_cons_self
        have hzero : c ≠ '0' := fun h => hhead (congrArg some h)
        rw [List.cons_append] at hsplit ⊢
        unfold readWhole?
        split
        · next heq => exact absurd (List.cons.inj heq).1 hzero
        · next heq =>
          rw [← (List.cons.inj heq).1, if_pos hc, hsplit]
        · next heq => exact absurd heq (List.cons_ne_nil _ _)

theorem readFraction_eq (hrest : EndsNumber rest) : readFraction rest = ([], rest) := by
  unfold readFraction
  split
  · next more => exact absurd rfl (hrest '.' rfl).2.1
  · rfl

theorem readExponent_eq (hrest : EndsNumber rest) : readExponent rest = (none, rest) := by
  unfold readExponent
  split
  · next more => exact absurd rfl (hrest 'e' rfl).2.2.1
  · next more => exact absurd rfl (hrest 'E' rfl).2.2.2
  · rfl

/-- A number without a fraction and an exponent, known by the parts of its text. -/
theorem readNumber_eq {unsigned whole : List Char} (negative : Bool)
    (hunsigned : unsigned.head? ≠ some '-') (hwhole : readWhole? unsigned = some (whole, rest))
    (hrest : EndsNumber rest) :
    readNumber (if negative then '-' :: unsigned else unsigned)
      = (number negative whole [] none).map fun v => (v, rest) := by
  unfold readNumber
  split
  next sign digits heq =>
  have hparts : (negative, unsigned) = (sign, digits) := by
    rw [← heq]
    cases negative with
    | true => rfl
    | false =>
        rw [if_neg Bool.false_ne_true]
        split
        · exact absurd rfl hunsigned
        · rfl
  obtain ⟨rfl, rfl⟩ := Prod.mk.inj hparts
  rw [hwhole]
  dsimp only
  rw [readFraction_eq hrest]
  dsimp only
  rw [readExponent_eq hrest]

/-- **An integer is read back**, with its sign. -/
theorem number_toDigits (negative : Bool) {n : Nat} (h : n < 10 ^ Numeral.digitLimit) :
    number negative (Nat.toDigits 10 n) [] none
      = .ok (.int (if negative then -(n : Int) else n)) := by
  have hplain : ([] : List Char).isEmpty = true ∧ (none : Option Int).isNone = true := ⟨rfl, rfl⟩
  have hlength : ¬ Numeral.digitLimit < (Nat.toDigits 10 n).length :=
    Nat.not_lt.mpr (length_toDigits_le_iff.mpr h)
  rw [number, if_pos hplain, if_neg hlength, List.append_nil, Nat.ofDigitChars_ten_toDigits]

end Parts

/-- **The decimal of an integer is read back** from the start of a text. -/
theorem readNumber_decimal {n : Int} (h : n.natAbs < 10 ^ Numeral.digitLimit) {rest : List Char}
    (hrest : EndsNumber rest) : readNumber (decimal n ++ rest) = .ok (.int n, rest) := by
  have hunsigned := toDigits_append_head?_ne (d := '-') rfl n.natAbs rest
  have hwhole := readWhole?_toDigits n.natAbs hrest
  rw [decimal]
  by_cases hneg : n < 0
  · have hvalue : -(n.natAbs : Int) = n := by omega
    have hread := readNumber_eq true hunsigned hwhole hrest
    rw [if_pos rfl, number_toDigits true h, if_pos rfl, hvalue] at hread
    rw [if_pos hneg]
    exact hread
  · have hvalue : (n.natAbs : Int) = n := by omega
    have hread := readNumber_eq false hunsigned hwhole hrest
    rw [if_neg Bool.false_ne_true, number_toDigits false h, if_neg Bool.false_ne_true,
      hvalue] at hread
    rw [if_neg hneg]
    exact hread

end Json

end SegmentFit
