import Mathlib.Data.List.Nodup
import SegmentFit.Proofs.Difference
import SegmentFit.Proofs.JsonStrings
import SegmentFit.Proofs.Numerals

/-!
# JSON text — values that it can hold, and how they are spelled

A value is `Legible` if JSON text can hold it: it has no binary number, no integer with too
many digits, no surrogate in a text, and no object that names a key twice. `Within` adds how
deep lists and objects are nested in it.

The two spellings of JSON text differ in the blanks behind commas and colons
(`Spelling.IsText`). Either way a value starts with a character that is no gap and tells what
the value is (`render_opens`), and all that is written of it is printable
(`printable_render`).
-/

namespace SegmentFit

/-- A text without surrogates. -/
def CodeText.Whole (text : CodeText) : Prop :=
  ∃ chars, text = CodeText.ofChars chars

theorem CodeText.whole_ofString (s : String) : (CodeText.ofString s).Whole :=
  ⟨s.toList, rfl⟩

namespace Json

/-! ## Values that JSON text can hold -/

/-- A value that JSON text can hold. -/
inductive Legible : Json → Prop where
  | null : Legible .null
  | bool (b : Bool) : Legible (.bool b)
  | int {n : Int} (hdigits : n.natAbs < 10 ^ Numeral.digitLimit) : Legible (.int n)
  | str {text : CodeText} (htext : text.Whole) : Legible (.str text)
  | arr {items : List Json} (hitems : ∀ v ∈ items, Legible v) : Legible (.arr items)
  | obj {members : List (CodeText × Json)} (hnames : ∀ m ∈ members, m.1.Whole)
      (hkeys : (members.map Prod.fst).Nodup) (hvalues : ∀ m ∈ members, Legible m.2) :
      Legible (.obj members)

mutual

/-- How deep lists and objects are nested in a value. -/
def nesting : Json → Nat
  | .arr items => nestingItems items + 1
  | .obj members => nestingMembers members + 1
  | _ => 0

def nestingItems : List Json → Nat
  | [] => 0
  | v :: rest => max (nesting v) (nestingItems rest)

def nestingMembers : List (CodeText × Json) → Nat
  | [] => 0
  | (_, v) :: rest => max (nesting v) (nestingMembers rest)

end

/-- Items are nested no deeper than a depth if none of them is. -/
theorem nestingItems_le_iff {items : List Json} {d : Nat} :
    nestingItems items ≤ d ↔ ∀ v ∈ items, v.nesting ≤ d := by
  induction items with
  | nil => exact iff_of_true (Nat.zero_le d) nofun
  | cons v rest ih => rw [nestingItems, Nat.max_le, ih, List.forall_mem_cons]

/-- Members are nested no deeper than a depth if none of their values is. -/
theorem nestingMembers_le_iff {members : List (CodeText × Json)} {d : Nat} :
    nestingMembers members ≤ d ↔ ∀ m ∈ members, m.2.nesting ≤ d := by
  induction members with
  | nil => exact iff_of_true (Nat.zero_le d) nofun
  | cons m rest ih => rw [nestingMembers, Nat.max_le, ih, List.forall_mem_cons]

/-! ## Spellings of JSON text -/

/-- A spelling of JSON text, with blanks behind commas and colons at the most. -/
structure Spelling.IsText (s : Spelling) : Prop where
  null : s.null = compact.null
  truth : s.truth = compact.truth
  text : s.text = compact.text
  afterItem : ∃ gap, s.afterItem = ',' :: gap ∧ ∀ c ∈ gap, c = ' '
  afterKey : ∃ gap, s.afterKey = ':' :: gap ∧ ∀ c ∈ gap, c = ' '

theorem isText_compact : compact.IsText :=
  ⟨rfl, rfl, rfl, ⟨[], rfl, nofun⟩, ⟨[], rfl, nofun⟩⟩

theorem isGap_of_blank {gap : List Char} (h : ∀ c ∈ gap, c = ' ') : ∀ c ∈ gap, isGap c = true := by
  intro c hc
  rw [h c hc]
  rfl

theorem skipGap_cons {c : Char} (h : isGap c = false) (rest : List Char) :
    skipGap (c :: rest) = c :: rest :=
  List.dropWhile_cons_of_neg (Bool.eq_false_iff.mp h)

/-- A gap is skipped to its end and no further. -/
theorem skipGap_append {gap : List Char} (hgap : ∀ c ∈ gap, isGap c = true) {c : Char}
    (h : isGap c = false) (rest : List Char) : skipGap (gap ++ c :: rest) = c :: rest := by
  rw [skipGap, List.dropWhile_append_of_pos hgap]
  exact skipGap_cons h rest

/-- A character that a value may start with. -/
def Opens (c : Char) : Prop :=
  c.isDigit = true ∨ c ∈ ['n', 't', 'f', '-', '\x22', '[', '\x7b']

theorem Opens.printable {c : Char} (h : Opens c) : Printable c ∧ c ≠ ' ' ∧ c ≠ ']' := by
  rcases h with hdigit | hmem
  · have hcode := code_of_isDigit hdigit
    refine ⟨⟨by omega, by omega⟩, ne_of_isDigit hdigit rfl, ne_of_isDigit hdigit rfl⟩
  · have hall : ∀ d ∈ ['n', 't', 'f', '-', '\x22', '[', '\x7b'],
        Printable d ∧ d ≠ ' ' ∧ d ≠ ']' := forall_of_all (by decide)
    exact hall c hmem

theorem Opens.isGap_eq_false {c : Char} (h : Opens c) : isGap c = false := by
  obtain ⟨⟨hlow, -⟩, hblank, -⟩ := h.printable
  have hcontrol (d : Char) (hd : d.toNat < 0x20) : c ≠ d := by
    rintro rfl
    omega
  simp [isGap, hblank, hcontrol '\t' (by decide), hcontrol '\n' (by decide),
    hcontrol '\r' (by decide)]

section Render

variable {s : Spelling} (hs : s.IsText)

/-- An integer starts with a sign or a digit, which opens a value. -/
theorem decimal_opens (n : Int) : ∃ c more, decimal n = c :: more ∧ Opens c := by
  rw [decimal]
  split
  · exact ⟨'-', _, rfl, Or.inr (by decide)⟩
  · cases hdigits : Nat.toDigits 10 n.natAbs with
    | nil => exact absurd hdigits Nat.toDigits_ne_nil
    | cons c more =>
        refine ⟨c, more, rfl, Or.inl (isDigit_of_mem_toDigits (n := n.natAbs) ?_)⟩
        rw [hdigits]
        exact List.mem_cons_self

include hs

/-- The text of a value starts with a character that tells what it is. -/
theorem render_opens {v : Json} (hv : v.Legible) :
    ∃ c more, render s v = c :: more ∧ Opens c := by
  cases hv with
  | null =>
      rw [render, hs.null]
      exact ⟨'n', _, rfl, Or.inr (by decide)⟩
  | bool b =>
      rw [render, hs.truth]
      cases b with
      | true => exact ⟨'t', _, rfl, Or.inr (by decide)⟩
      | false => exact ⟨'f', _, rfl, Or.inr (by decide)⟩
  | int hdigits =>
      rw [render]
      exact decimal_opens _
  | str htext =>
      rw [render, hs.text]
      exact ⟨'\x22', _, rfl, Or.inr (by decide)⟩
  | @arr items hitems =>
      cases items with
      | nil => exact ⟨'[', _, rfl, Or.inr (by decide)⟩
      | cons v rest => exact ⟨'[', _, by rw [render]; rfl, Or.inr (by decide)⟩
  | @obj members hnames hkeys hvalues =>
      cases members with
      | nil => exact ⟨'\x7b', _, rfl, Or.inr (by decide)⟩
      | cons m rest => exact ⟨'\x7b', _, by rw [render]; rfl, Or.inr (by decide)⟩

/-- What is written of a value is left when the gap before it is skipped. -/
theorem skipGap_render {v : Json} (hv : v.Legible) {gap : List Char}
    (hgap : ∀ c ∈ gap, isGap c = true) (rest : List Char) :
    skipGap (gap ++ (render s v ++ rest)) = render s v ++ rest := by
  obtain ⟨c, more, htext, hopens⟩ := render_opens hs hv
  rw [htext, List.cons_append]
  exact skipGap_append hgap hopens.isGap_eq_false _

end Render

/-! ## Values nested so deep at most -/

/-- A value that JSON text can hold, in which lists and objects are nested so deep at most. -/
structure Within (depth : Nat) (v : Json) : Prop where
  legible : v.Legible
  nesting_le : v.nesting ≤ depth

namespace Within

variable {depth : Nat}

/-- A value that is read back at a depth is read back at any greater one. -/
theorem mono {d d' : Nat} (hd : d ≤ d') {v : Json} (h : Within d v) : Within d' v :=
  ⟨h.legible, Nat.le_trans h.nesting_le hd⟩

/-- An integer is read back if it has no more digits than a numeral may have. -/
theorem of_int {n : Int} (h : n.natAbs < 10 ^ Numeral.digitLimit) : Within depth (.int n) :=
  ⟨.int h, Nat.zero_le depth⟩

theorem of_nat {n : Nat} (h : n < 2 ^ 128) : Within depth (.nat n) :=
  .of_int (Numeral.lt_digitLimit h)

@[simp] theorem of_bool (b : Bool) : Within depth (.bool b) :=
  ⟨.bool b, Nat.zero_le depth⟩

@[simp] theorem of_string (s : String) : Within depth (.string s) :=
  ⟨.str (CodeText.whole_ofString s), Nat.zero_le depth⟩

/-- A value that may be missing is read back if it is when it is there. -/
@[simp] theorem optional_iff {α : Type} {encode : α → Json} {a : Option α} :
    Within depth (.optional encode a) ↔ ∀ x, a = some x → Within depth (encode x) := by
  cases a with
  | none => exact iff_of_true ⟨.null, Nat.zero_le depth⟩ nofun
  | some x => exact ⟨fun h y hy => Option.some.inj hy ▸ h, fun h => h x rfl⟩

/-- A list is read back if its items are, one level deeper. -/
@[simp] theorem arr_iff {items : List Json} :
    Within (depth + 1) (.arr items) ↔ ∀ v ∈ items, Within depth v := by
  have hnesting : (Json.arr items).nesting ≤ depth + 1 ↔ ∀ v ∈ items, v.nesting ≤ depth := by
    rw [nesting, Nat.succ_le_succ_iff, nestingItems_le_iff]
  constructor
  · rintro ⟨hlegible, hdepth⟩ v hv
    cases hlegible with
    | arr hitems => exact ⟨hitems v hv, hnesting.mp hdepth v hv⟩
  · intro h
    exact ⟨.arr fun v hv => (h v hv).legible, hnesting.mpr fun v hv => (h v hv).nesting_le⟩

/-- An object is read back if its names are distinct and its values are read back, one level deeper.
-/
@[simp] theorem object_iff {members : List (String × Json)} :
    Within (depth + 1) (.object members)
      ↔ (members.map Prod.fst).Nodup ∧ ∀ m ∈ members, Within depth m.2 := by
  have hnesting : (Json.object members).nesting ≤ depth + 1
      ↔ ∀ m ∈ members, m.2.nesting ≤ depth := by
    rw [object, nesting, Nat.succ_le_succ_iff, nestingMembers_le_iff, List.forall_mem_map]
  have hkeys : (members.map fun m => (CodeText.ofString m.1, m.2)).map Prod.fst
      = (members.map Prod.fst).map CodeText.ofString := by
    rw [List.map_map, List.map_map]
    rfl
  constructor
  · rintro ⟨hlegible, hdepth⟩
    cases hlegible with
    | obj hnames hnodup hvalues =>
      rw [hkeys, List.nodup_map_iff CodeText.ofString_injective] at hnodup
      rw [List.forall_mem_map] at hvalues
      exact ⟨hnodup, fun m hm => ⟨hvalues m hm, hnesting.mp hdepth m hm⟩⟩
  · rintro ⟨hnodup, hvalues⟩
    refine ⟨.obj ?_ ?_ ?_, hnesting.mpr fun m hm => (hvalues m hm).nesting_le⟩
    · rw [List.forall_mem_map]
      exact fun m _ => CodeText.whole_ofString m.1
    · rw [hkeys, List.nodup_map_iff CodeText.ofString_injective]
      exact hnodup
    · rw [List.forall_mem_map]
      exact fun m hm => (hvalues m hm).legible

end Within

/-! ## Printable text -/

theorem printable_decimal (n : Int) : ∀ c ∈ decimal n, Printable c := by
  have hdigits : ∀ c ∈ Nat.toDigits 10 n.natAbs, Printable c := by
    intro c hc
    have hcode := code_of_isDigit (isDigit_of_mem_toDigits hc)
    exact ⟨by omega, by omega⟩
  rw [decimal]
  split
  · exact List.forall_mem_cons.mpr ⟨by decide, hdigits⟩
  · exact hdigits

/-- A mark and the gap behind it can be printed. -/
theorem printable_after {mark : Char} (hmark : Printable mark) {text : List Char}
    (h : ∃ gap, text = mark :: gap ∧ ∀ c ∈ gap, c = ' ') : ∀ c ∈ text, Printable c := by
  obtain ⟨gap, rfl, hgap⟩ := h
  refine List.forall_mem_cons.mpr ⟨hmark, fun c hc => ?_⟩
  rw [hgap c hc]
  decide

section Printable

variable {s : Spelling} (hs : s.IsText)

include hs

/-- Items are written in printable characters if each of them is. -/
theorem printable_renderItems {items : List Json}
    (h : ∀ v ∈ items, ∀ c ∈ render s v, Printable c) : ∀ c ∈ renderItems s items, Printable c := by
  induction items with
  | nil =>
      rw [renderItems, List.forall_mem_singleton]
      decide
  | cons v rest ih =>
      obtain ⟨hv, hrest⟩ := List.forall_mem_cons.mp h
      rw [renderItems, List.forall_mem_append, List.forall_mem_append]
      exact ⟨⟨printable_after (by decide) hs.afterItem, hv⟩, ih hrest⟩

/-- A member is printable behind whatever is. -/
theorem printable_member {start : List Char} (hstart : ∀ c ∈ start, Printable c) (key : CodeText)
    {v : Json} (hv : ∀ c ∈ render s v, Printable c) {rest : List Char}
    (hrest : ∀ c ∈ rest, Printable c) :
    ∀ c ∈ start ++ s.text key ++ s.afterKey ++ render s v ++ rest, Printable c := by
  rw [hs.text]
  simp only [List.forall_mem_append]
  exact ⟨⟨⟨⟨hstart, printable_escaped key⟩, printable_after (by decide) hs.afterKey⟩, hv⟩, hrest⟩

/-- Members are written in printable characters if each of their values is. -/
theorem printable_renderMembers {members : List (CodeText × Json)}
    (h : ∀ m ∈ members, ∀ c ∈ render s m.2, Printable c) :
    ∀ c ∈ renderMembers s members, Printable c := by
  induction members with
  | nil =>
      rw [renderMembers, List.forall_mem_singleton]
      decide
  | cons m rest ih =>
      obtain ⟨hm, hrest⟩ := List.forall_mem_cons.mp h
      rw [renderMembers]
      exact printable_member hs (printable_after (by decide) hs.afterItem) m.1 hm (ih hrest)

/-- What is written of a value is printable. -/
theorem printable_render {v : Json} (hv : v.Legible) : ∀ c ∈ render s v, Printable c := by
  induction hv with
  | null =>
      rw [render, hs.null]
      exact forall_of_all (by decide)
  | bool b =>
      rw [render, hs.truth]
      cases b with
      | true => exact forall_of_all (by decide)
      | false => exact forall_of_all (by decide)
  | int hdigits =>
      rw [render]
      exact printable_decimal _
  | str htext =>
      rw [render, hs.text]
      exact printable_escaped _
  | @arr items hitems ih =>
      cases items with
      | nil =>
          rw [render]
          exact forall_of_all (by decide)
      | cons v rest =>
          obtain ⟨hv, hrest⟩ := List.forall_mem_cons.mp ih
          rw [render, List.forall_mem_append, List.forall_mem_cons]
          exact ⟨⟨by decide, hv⟩, printable_renderItems hs hrest⟩
  | @obj members hnames hkeys hvalues ih =>
      cases members with
      | nil =>
          rw [render]
          exact forall_of_all (by decide)
      | cons m rest =>
          obtain ⟨hm, hrest⟩ := List.forall_mem_cons.mp ih
          have hbrace : ∀ c ∈ ['\x7b'], Printable c := List.forall_mem_singleton.mpr (by decide)
          rw [render]
          exact printable_member hs hbrace m.1 hm (printable_renderMembers hs hrest)

end Printable

end Json

end SegmentFit
