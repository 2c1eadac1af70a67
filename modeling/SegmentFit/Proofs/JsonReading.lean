import Mathlib.Data.List.TakeWhile
import SegmentFit.Proofs.JsonText

/-!
# Reading JSON text — what is written is read back

However a legible value is spelled as JSON text, the reader gives it back, with the members in
their order (`read_render`), if it may descend as deep as the value is nested.

The induction follows the value. `ReadsBack` is what it proves of each part: the reader takes
the part off the start of a text, whatever comes behind it, as long as that does not go on with
a number. Two units of fuel for each character are enough.
-/

namespace SegmentFit.Json

/-! ## Integers and constants -/

theorem readValue_leaf (fuel depth : Nat) {c : Char} (more : List Char) (hquote : c ≠ '\x22')
    (hlist : c ≠ '[') (hobject : c ≠ '\x7b') :
    readValue (fuel + 1) depth (c :: more)
      = match readConstant? (c :: more) with
        | some found => .ok found
        | none => readNumber (c :: more) := by
  unfold readValue
  -- the other cases want another first character
  split
  · next heq => exact absurd (List.cons.inj heq).1 hquote
  · next heq => exact absurd (List.cons.inj heq).1 hlist
  · next heq => exact absurd (List.cons.inj heq).1 hlist
  · next heq => exact absurd (List.cons.inj heq).1 hobject
  · next heq => exact absurd (List.cons.inj heq).1 hobject
  · rfl

/-- No constant starts with a digit, or with a digit behind a sign. -/
theorem readConstant?_digit {c : Char} (h : c.isDigit = true) (more : List Char) :
    readConstant? (c :: more) = none ∧ readConstant? ('-' :: c :: more) = none := by
  have hne (d : Char) (hd : d.isDigit = false) : d ≠ c := (ne_of_isDigit h hd).symm
  simp [readConstant?, constants, hne 'n' rfl, hne 't' rfl, hne 'f' rfl, hne 'N' rfl, hne 'I' rfl,
    hne '-' rfl]

/-- The text of an integer is none of a constant, and of no string, list or object. -/
theorem readValue_decimal {n : Int} (h : n.natAbs < 10 ^ Numeral.digitLimit) (fuel depth : Nat)
    {rest : List Char} (hrest : EndsNumber rest) :
    readValue (fuel + 1) depth (decimal n ++ rest) = .ok (.int n, rest) := by
  have hread := readNumber_decimal h hrest
  cases hdigits : Nat.toDigits 10 n.natAbs with
  | nil => exact absurd hdigits Nat.toDigits_ne_nil
  | cons c more =>
      have hc : c.isDigit = true := by
        refine isDigit_of_mem_toDigits (n := n.natAbs) ?_
        rw [hdigits]
        exact List.mem_cons_self
      rw [decimal, hdigits] at hread ⊢
      by_cases hneg : n < 0
      · have hleaf := readValue_leaf fuel depth (c :: (more ++ rest)) (by decide : '-' ≠ '\x22')
          (by decide) (by decide)
        rw [if_pos hneg] at hread ⊢
        rw [List.cons_append, List.cons_append, hleaf, (readConstant?_digit hc _).2]
        exact hread
      · have hleaf := readValue_leaf fuel depth (more ++ rest) (ne_of_isDigit hc rfl)
          (ne_of_isDigit hc rfl) (ne_of_isDigit hc rfl)
        rw [if_neg hneg] at hread ⊢
        rw [List.cons_append, hleaf, (readConstant?_digit hc _).1]
        exact hread

/-! ## Lists and objects -/

/-- A value is taken off the start of a text, if nothing goes on with a number behind it. -/
def ReadsBack (s : Spelling) (v : Json) : Prop :=
  ∀ fuel depth rest, v.nesting ≤ depth → 2 * (render s v).length ≤ fuel → EndsNumber rest →
    readValue fuel depth (render s v ++ rest) = .ok (v, rest)

/-- A part of a value that is read back, where lists and objects may be nested so deep. -/
structure Part (s : Spelling) (depth : Nat) (v : Json) : Prop where
  legible : v.Legible
  reads : ReadsBack s v
  depth : v.nesting ≤ depth

theorem endsNumber_comma (rest : List Char) : EndsNumber (',' :: rest) :=
  endsNumber_cons rest (by decide)

theorem notMem_of_nodup {acc : List (CodeText × Json)} {key : CodeText} {v : Json}
    {members : List (CodeText × Json)} (h : ((acc ++ (key, v) :: members).map Prod.fst).Nodup) :
    key ∉ acc.map Prod.fst := by
  rw [List.map_append, List.map_cons] at h
  exact fun hmem => List.disjoint_of_nodup_append h hmem List.mem_cons_self

theorem readValue_items {fuel depth : Nat} {text more : List Char} {c : Char}
    (htext : skipGap text = c :: more) (hc : c ≠ ']') :
    readValue (fuel + 1) (depth + 1) ('[' :: text)
      = (readItems fuel depth (c :: more)).map fun found => (.arr found.1, found.2) := by
  rw [readValue, htext]
  split
  · next heq => exact absurd (List.cons.inj heq).1 hc
  · rfl

theorem readValue_members {fuel depth : Nat} {text more : List Char} {c : Char}
    (htext : skipGap text = c :: more) (hc : c ≠ '\x7d') :
    readValue (fuel + 1) (depth + 1) ('\x7b' :: text)
      = (readMembers fuel depth [] (c :: more)).map fun found => (.obj found.1, found.2) := by
  rw [readValue, htext]
  split
  · next heq => exact absurd (List.cons.inj heq).1 hc
  · rfl

section Render

variable {s : Spelling} (hs : s.IsText)

include hs

/-- The items of a list are read up to its closing bracket. -/
theorem readItems_render {depth : Nat} {v : Json} {items : List Json}
    (hparts : ∀ w ∈ v :: items, Part s depth w) (fuel : Nat)
    (hfuel : 2 * (render s v ++ renderItems s items).length < fuel) (rest : List Char) :
    readItems fuel depth (render s v ++ (renderItems s items ++ rest))
      = .ok (v :: items, rest) := by
  induction items generalizing v fuel with
  | nil =>
      obtain ⟨fuel, rfl⟩ : ∃ f, fuel = f + 1 := ⟨fuel - 1, by omega⟩
      rw [List.length_append] at hfuel
      have hpart := hparts v List.mem_cons_self
      have hread := hpart.reads fuel depth (']' :: rest) hpart.depth (by omega)
        (endsNumber_cons _ (by decide))
      rw [renderItems, List.singleton_append, readItems, hread]
      dsimp only [bind, Except.bind]
      rw [skipGap_cons rfl]
      rfl
  | cons w items ih =>
      obtain ⟨hpart, hmore⟩ := List.forall_mem_cons.mp hparts
      obtain ⟨gap, hafter, hgap⟩ := hs.afterItem
      obtain ⟨fuel, rfl⟩ : ∃ f, fuel = f + 1 := ⟨fuel - 1, by omega⟩
      simp only [renderItems, hafter, List.length_append, List.length_cons] at hfuel
      have hread := hpart.reads fuel depth
        (',' :: (gap ++ (render s w ++ (renderItems s items ++ rest)))) hpart.depth (by omega)
        (endsNumber_comma _)
      have hitems := ih hmore fuel (by rw [List.length_append]; omega)
      rw [renderItems, hafter, List.append_assoc, List.append_assoc, List.cons_append, readItems,
        hread]
      dsimp only [bind, Except.bind]
      rw [skipGap_cons rfl]
      show (readItems fuel depth (skipGap (gap ++ (render s w ++ _))) >>= _) = _
      rw [skipGap_render hs (hmore w List.mem_cons_self).legible (isGap_of_blank hgap), hitems]
      rfl

theorem skipGap_text {gap : List Char} (hgap : ∀ c ∈ gap, c = ' ') (key : CodeText)
    (rest : List Char) : skipGap (gap ++ (s.text key ++ rest)) = s.text key ++ rest := by
  rw [hs.text]
  exact skipGap_append (isGap_of_blank hgap) rfl _

/-- The key of a member is read, and its value, up to what follows them. -/
theorem readMembers_name {fuel depth : Nat} (acc : List (CodeText × Json)) {key : CodeText}
    (hkey : key.Whole) {v : Json} (hv : v.Legible) {rest : List Char}
    (hread : readValue fuel depth (render s v ++ rest) = .ok (v, rest)) :
    readMembers (fuel + 1) depth acc (s.text key ++ (s.afterKey ++ (render s v ++ rest)))
      = match skipGap rest with
        | '\x7d' :: rest => .ok (put key v acc, rest)
        | ',' :: rest => readMembers fuel depth (put key v acc) (skipGap rest)
        | rest => .error (.missing .comma rest.length) := by
  obtain ⟨chars, rfl⟩ := hkey
  obtain ⟨gap, hafter, hgap⟩ := hs.afterKey
  have hstring (start : List Char) :=
    readString_escaped start chars (':' :: (gap ++ (render s v ++ rest)))
  have htext : s.text (CodeText.ofChars chars) ++ (s.afterKey ++ (render s v ++ rest))
      = '\x22' :: ((CodeText.ofChars chars).flatMap escapedPoint
          ++ Text.doubleQuote :: (':' :: (gap ++ (render s v ++ rest)))) := by
    rw [hs.text, hafter]
    show escaped _ ++ _ = _
    rw [escaped, List.append_assoc]
    rfl
  rw [htext, readMembers, hstring]
  dsimp only [bind, Except.bind]
  rw [skipGap_cons rfl]
  show (readValue fuel depth (skipGap (gap ++ (render s v ++ rest))) >>= _) = _
  rw [skipGap_render hs hv (isGap_of_blank hgap), hread]
  rfl

/-- The members of an object are read up to its closing brace, behind those before them. -/
theorem readMembers_render {depth : Nat} (acc : List (CodeText × Json)) {key : CodeText} {v : Json}
    {members : List (CodeText × Json)} (hnames : ∀ m ∈ (key, v) :: members, m.1.Whole)
    (hkeys : ((acc ++ (key, v) :: members).map Prod.fst).Nodup)
    (hparts : ∀ m ∈ (key, v) :: members, Part s depth m.2) (fuel : Nat)
    (hfuel : 2 * (render s v ++ renderMembers s members).length < fuel) (rest : List Char) :
    readMembers fuel depth acc
        (s.text key ++ (s.afterKey ++ (render s v ++ (renderMembers s members ++ rest))))
      = .ok (acc ++ (key, v) :: members, rest) := by
  induction members generalizing acc key v fuel with
  | nil =>
      obtain ⟨fuel, rfl⟩ : ∃ f, fuel = f + 1 := ⟨fuel - 1, by omega⟩
      rw [List.length_append] at hfuel
      have hkey : key.Whole := hnames (key, v) List.mem_cons_self
      have hpart : Part s depth v := hparts (key, v) List.mem_cons_self
      have hread := hpart.reads fuel depth ('\x7d' :: rest) hpart.depth (by omega)
        (endsNumber_cons _ (by decide))
      rw [renderMembers, List.singleton_append, readMembers_name hs acc hkey hpart.legible hread,
        skipGap_cons rfl, put_of_notMem v (notMem_of_nodup hkeys)]
      rfl
  | cons m members ih =>
      obtain ⟨next, w⟩ := m
      obtain ⟨hkey, hmoreNames⟩ := List.forall_mem_cons.mp hnames
      obtain ⟨hpart, hmore⟩ : Part s depth v ∧ ∀ m ∈ (next, w) :: members, Part s depth m.2 :=
        List.forall_mem_cons.mp hparts
      obtain ⟨gap, hafter, hgap⟩ := hs.afterItem
      obtain ⟨fuel, rfl⟩ : ∃ f, fuel = f + 1 := ⟨fuel - 1, by omega⟩
      simp only [renderMembers, hafter, List.length_append, List.length_cons] at hfuel
      have hread := hpart.reads fuel depth
        (',' :: (gap ++ (s.text next ++ (s.afterKey
          ++ (render s w ++ (renderMembers s members ++ rest)))))) hpart.depth (by omega)
        (endsNumber_comma _)
      have hsplit : (acc ++ (key, v) :: (next, w) :: members)
          = acc ++ [(key, v)] ++ (next, w) :: members := by
        rw [List.append_assoc, List.singleton_append]
      have hmembers := ih (acc ++ [(key, v)]) hmoreNames (hsplit ▸ hkeys) hmore fuel
        (by rw [List.length_append]; omega)
      rw [renderMembers, hafter]
      simp only [List.append_assoc, List.cons_append]
      rw [readMembers_name hs acc hkey hpart.legible hread, skipGap_cons rfl]
      show readMembers fuel depth (put key v acc) (skipGap (gap ++ (s.text next ++ _))) = _
      rw [skipGap_text hs hgap, put_of_notMem v (notMem_of_nodup hkeys), hmembers, hsplit]

/-! ## Whole values -/

/-- There is fuel to start on a value with. -/
theorem exists_fuel {v : Json} (hv : v.Legible) {fuel : Nat}
    (hfuel : 2 * (render s v).length ≤ fuel) : ∃ more, fuel = more + 1 := by
  obtain ⟨c, tail, htext, -⟩ := render_opens hs hv
  rw [htext, List.length_cons] at hfuel
  exact ⟨fuel - 1, by omega⟩

/-- A list is read back if its items are. -/
theorem readsBack_arr {items : List Json} (hitems : ∀ v ∈ items, v.Legible)
    (hreads : ∀ v ∈ items, ReadsBack s v) : ReadsBack s (.arr items) := by
  intro fuel depth rest hdepth hfuel hrest
  rw [nesting] at hdepth
  obtain ⟨depth, rfl⟩ : ∃ d, depth = d + 1 := ⟨depth - 1, by omega⟩
  have hdepths := nestingItems_le_iff.mp (Nat.le_of_succ_le_succ hdepth)
  have hparts (w : Json) (hw : w ∈ items) : Part s depth w :=
    ⟨hitems w hw, hreads w hw, hdepths w hw⟩
  obtain ⟨fuel, rfl⟩ := exists_fuel hs (.arr hitems) hfuel
  cases items with
  | nil =>
      show readValue (fuel + 1) (depth + 1) ('[' :: ']' :: rest) = _
      rw [readValue, skipGap_cons rfl]
      rfl
  | cons v more =>
      obtain ⟨c, tail, htext, hopens⟩ := render_opens hs (hitems v List.mem_cons_self)
      rw [render, List.cons_append, List.length_cons] at hfuel
      have hread := readItems_render hs hparts fuel (by omega) rest
      rw [htext, List.cons_append] at hread
      rw [render, List.cons_append, List.cons_append, List.append_assoc, htext, List.cons_append,
        readValue_items (skipGap_cons hopens.isGap_eq_false _) hopens.printable.2.2, hread]
      rfl

/-- An object is read back if its values are. -/
theorem readsBack_obj {members : List (CodeText × Json)} (hnames : ∀ m ∈ members, m.1.Whole)
    (hkeys : (members.map Prod.fst).Nodup) (hvalues : ∀ m ∈ members, m.2.Legible)
    (hreads : ∀ m ∈ members, ReadsBack s m.2) : ReadsBack s (.obj members) := by
  intro fuel depth rest hdepth hfuel hrest
  rw [nesting] at hdepth
  obtain ⟨depth, rfl⟩ : ∃ d, depth = d + 1 := ⟨depth - 1, by omega⟩
  have hdepths := nestingMembers_le_iff.mp (Nat.le_of_succ_le_succ hdepth)
  have hparts (m : CodeText × Json) (hm : m ∈ members) : Part s depth m.2 :=
    ⟨hvalues m hm, hreads m hm, hdepths m hm⟩
  obtain ⟨fuel, rfl⟩ := exists_fuel hs (.obj hnames hkeys hvalues) hfuel
  cases members with
  | nil =>
      show readValue (fuel + 1) (depth + 1) ('\x7b' :: '\x7d' :: rest) = _
      rw [readValue, skipGap_cons rfl]
      rfl
  | cons m more =>
      obtain ⟨key, v⟩ := m
      simp only [render, List.length_cons, List.length_append] at hfuel
      have hread := readMembers_render hs [] hnames hkeys hparts fuel
        (by rw [List.length_append]; omega) rest
      have hquote : s.text key = '\x22' :: (key.flatMap escapedPoint ++ [Text.doubleQuote]) := by
        rw [hs.text]
        rfl
      rw [hquote, List.cons_append] at hread
      rw [render]
      simp only [List.cons_append, List.append_assoc]
      rw [hquote, List.cons_append, readValue_members (skipGap_cons rfl _) (by decide), hread]
      rfl

/-- **A value is read back** from the start of a text. -/
theorem readsBack {v : Json} (hv : v.Legible) : ReadsBack s v := by
  induction hv with
  | null =>
      intro fuel depth rest hdepth hfuel hrest
      obtain ⟨fuel, rfl⟩ := exists_fuel hs .null hfuel
      rw [render, hs.null]
      rfl
  | bool b =>
      intro fuel depth rest hdepth hfuel hrest
      obtain ⟨fuel, rfl⟩ := exists_fuel hs (.bool b) hfuel
      rw [render, hs.truth]
      cases b with
      | true => rfl
      | false => rfl
  | int hdigits =>
      intro fuel depth rest hdepth hfuel hrest
      obtain ⟨fuel, rfl⟩ := exists_fuel hs (.int hdigits) hfuel
      rw [render]
      exact readValue_decimal hdigits _ _ hrest
  | str htext =>
      intro fuel depth rest hdepth hfuel hrest
      obtain ⟨fuel, rfl⟩ := exists_fuel hs (.str htext) hfuel
      obtain ⟨chars, rfl⟩ := htext
      rw [render, hs.text]
      show readValue (fuel + 1) depth (escaped _ ++ rest) = _
      rw [escaped, List.append_assoc]
      show readValue (fuel + 1) depth ('\x22' :: (_ ++ Text.doubleQuote :: rest)) = _
      rw [readValue, readString_escaped]
      rfl
  | arr hitems ih => exact readsBack_arr hs hitems ih
  | obj hnames hkeys hvalues ih => exact readsBack_obj hs hnames hkeys hvalues ih

/-- **What is written is read back**, with gaps behind it. -/
theorem read_render {v : Json} (hv : v.Legible) {depth : Nat} (hdepth : v.nesting ≤ depth)
    {gap : List Char} (hgap : ∀ c ∈ gap, isGap c = true) :
    read depth (render s v ++ gap) = .ok v := by
  obtain ⟨c, tail, htext, hopens⟩ := render_opens hs hv
  have hmark : c ≠ '\ufeff' := by
    rintro rfl
    exact absurd hopens.printable.1 (by decide)
  have hskip : skipGap (render s v ++ gap) = render s v ++ gap :=
    skipGap_render hs hv (List.forall_mem_nil _) gap
  have hend : EndsNumber gap := by
    intro d hd
    have hisGap := hgap d (List.mem_of_head? hd)
    rw [isGap] at hisGap
    simp at hisGap
    rcases hisGap with ((rfl | rfl) | rfl) | rfl <;> decide
  have hread := readsBack hs hv (2 * (render s v ++ gap).length + 2) depth gap hdepth
    (by rw [List.length_append]; omega) hend
  have hnone : skipGap gap = [] := by
    rw [skipGap, List.dropWhile_eq_nil_iff]
    exact hgap
  unfold read
  split
  · next heq =>
    rw [htext, List.cons_append] at heq
    exact absurd (List.cons.inj heq).1 hmark
  · rw [hskip, hread]
    dsimp only
    rw [hnone]

end Render

end SegmentFit.Json
