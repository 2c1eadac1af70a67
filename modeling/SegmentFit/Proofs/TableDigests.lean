import SegmentFit.Proofs.CanonicalJson
import SegmentFit.Proofs.Verdicts

/-!
# Tables of hashes — one text for one table

A table of hashes is hashed as a text: a line for each entry, its name and its hash with a colon
between them, and the lines in the order of the names. The order in which the entries were made
does not show (`digestLines_eq_of_perm`).

Neither the colon nor the line feed is escaped, so two tables may have the same text. They have not
if no name holds either of the two and no hash a line feed (`Delimited`): then the text is cut into
its lines, and each line at its first colon, in one way only (`digestLines_eq_iff`). The names of
sections and hexadecimal hashes are of that kind (`Sections.delimited_digests`).
-/

namespace SegmentFit

/-! ## Lines that are joined -/

section Joined

variable {α : Type} [BEq α] [LawfulBEq α] {separator : α} {lines lines' : List (List α)}

omit [BEq α] [LawfulBEq α] in
/-- Lines that are joined to nothing are no lines, if none of them is empty. -/
theorem eq_nil_of_intercalate_eq_nil (hne : [] ∉ lines)
    (h : [separator].intercalate lines = []) : lines = [] := by
  cases lines with
  | nil => rfl
  | cons line rest =>
      have hline : line ≠ [] := fun heq => hne (heq ▸ List.mem_cons_self)
      cases rest with
      | nil => exact absurd (List.intercalate_singleton.symm.trans h) hline
      | cons next more =>
          rw [List.intercalate_cons_cons, List.append_assoc, List.append_eq_nil_iff] at h
          exact absurd h.1 hline

/-- **Joined lines are told apart** if none of them is empty or holds the separator. -/
theorem eq_of_intercalate_eq (hne : [] ∉ lines) (hne' : [] ∉ lines')
    (hlines : ∀ line ∈ lines, separator ∉ line) (hlines' : ∀ line ∈ lines', separator ∉ line)
    (h : [separator].intercalate lines = [separator].intercalate lines') : lines = lines' := by
  by_cases hnil : lines = []
  · rw [hnil] at h ⊢
    exact (eq_nil_of_intercalate_eq_nil hne' h.symm).symm
  · by_cases hnil' : lines' = []
    · rw [hnil'] at h ⊢
      exact eq_nil_of_intercalate_eq_nil hne h
    · rw [← List.splitOn_intercalate separator hlines hnil, h,
        List.splitOn_intercalate separator hlines' hnil']

/-- A list is cut at its first separator in one way. -/
theorem append_separator_inj {front front' rest rest' : List α} (h : separator ∉ front)
    (h' : separator ∉ front') :
    front ++ separator :: rest = front' ++ separator :: rest' ↔ front = front' ∧ rest = rest' := by
  have hplace {front : List α} (h : separator ∉ front) (rest : List α) :
      (front ++ separator :: rest).idxOf separator = front.length := by
    rw [List.idxOf_append_of_notMem h, List.idxOf_cons_self, Nat.add_zero]
  constructor
  · intro heq
    have hlength : front.length = front'.length := by
      rw [← hplace h rest, heq, hplace h']
    obtain ⟨hfront, hrest⟩ := List.append_inj heq hlength
    exact ⟨hfront, (List.cons.inj hrest).2⟩
  · rintro ⟨rfl, rfl⟩
    rfl

end Joined

/-! ## The lines of a table -/

/-- The line of an entry. -/
def digestLine (entry : String × String) : List Char :=
  entry.1.toList ++ ':' :: entry.2.toList

/-- The entries of a table in the order of their names. -/
def byName (digests : List (String × String)) : List (String × String) :=
  digests.mergeSort fun a b => decide (a.1 ≤ b.1)

/-- A line shows where the name of its entry ends, and the text where the line ends. -/
def Delimited (entry : String × String) : Prop :=
  (':' ∉ entry.1.toList ∧ '\n' ∉ entry.1.toList) ∧ '\n' ∉ entry.2.toList

instance (entry : String × String) : Decidable (Delimited entry) :=
  inferInstanceAs (Decidable (_ ∧ _))

theorem digestLine_ne_nil (entry : String × String) : digestLine entry ≠ [] :=
  List.append_ne_nil_of_right_ne_nil _ (List.cons_ne_nil _ _)

section Entries

variable {entry entry' : String × String}

/-- The line of an entry is not broken, if neither its name nor its hash is. -/
theorem Delimited.notMem_digestLine (h : Delimited entry) : '\n' ∉ digestLine entry := by
  obtain ⟨⟨-, hname⟩, hdigest⟩ := h
  rw [digestLine, List.mem_append, List.mem_cons]
  rintro (hmem | hcolon | hmem)
  · exact hname hmem
  · exact absurd hcolon (by decide)
  · exact hdigest hmem

/-- A line is cut at its first colon. -/
theorem Delimited.digestLine_eq_iff (h : Delimited entry) (h' : Delimited entry') :
    digestLine entry = digestLine entry' ↔ entry = entry' := by
  rw [digestLine, digestLine, append_separator_inj h.1.1 h'.1.1, String.toList_inj,
    String.toList_inj, Prod.ext_iff]

end Entries

section Tables

variable {first second : List (String × String)}

/-- **What is hashed** are the lines of the entries, in the order of their names. -/
theorem toList_digestLines (digests : List (String × String)) :
    (digestLines digests).toList = ['\n'].intercalate ((byName digests).map digestLine) := by
  have hline (entry : String × String) :
      (entry.1 ++ ":" ++ entry.2).toList = digestLine entry := by
    rw [String.toList_append, String.toList_append, List.append_assoc]
    rfl
  rw [digestLines, String.toList_intercalate, List.map_map]
  exact congrArg _ (List.map_congr_left fun entry _ => hline entry)

/-- Tables are put in the same order exactly if they have the same entries. -/
theorem byName_eq_iff (hfirst : (first.map Prod.fst).Nodup) :
    byName first = byName second ↔ first.Perm second := by
  refine mergeSort_keys_eq_iff (fun a b => decide (a ≤ b)) ?_ ?_ ?_ hfirst
  · intro a b c hab hbc
    exact decide_eq_true (String.le_trans (of_decide_eq_true hab) (of_decide_eq_true hbc))
  · intro a b
    rw [Bool.or_eq_true, decide_eq_true_eq, decide_eq_true_eq]
    exact String.le_total a b
  · intro a b hab hba
    exact String.le_antisymm (of_decide_eq_true hab) (of_decide_eq_true hba)

/-- The text of a table does not show in which order its entries were made. -/
theorem digestLines_eq_of_perm (hfirst : (first.map Prod.fst).Nodup) (h : first.Perm second) :
    digestLines first = digestLines second := by
  rw [← String.toList_inj, toList_digestLines, toList_digestLines, (byName_eq_iff hfirst).mpr h]

theorem nil_notMem_lines (digests : List (String × String)) :
    [] ∉ (byName digests).map digestLine := by
  rw [List.mem_map]
  rintro ⟨entry, -, h⟩
  exact digestLine_ne_nil entry h

theorem notMem_lines (h : ∀ e ∈ first, Delimited e) :
    ∀ line ∈ (byName first).map digestLine, '\n' ∉ line :=
  List.forall_mem_map.mpr fun e he => (h e (List.mem_mergeSort.mp he)).notMem_digestLine

/-- **The text of a table** is that of no other one, if its entries are delimited. -/
theorem digestLines_eq_iff (hfirst : (first.map Prod.fst).Nodup)
    (hdelimited : ∀ e ∈ first, Delimited e) (hdelimited' : ∀ e ∈ second, Delimited e) :
    digestLines first = digestLines second ↔ first.Perm second := by
  refine ⟨fun h => ?_, digestLines_eq_of_perm hfirst⟩
  rw [← String.toList_inj, toList_digestLines, toList_digestLines] at h
  have hlines := eq_of_intercalate_eq (nil_notMem_lines first) (nil_notMem_lines second)
    (notMem_lines hdelimited) (notMem_lines hdelimited') h
  have hentries : ∀ e ∈ byName first, ∀ e' ∈ byName second,
      digestLine e = digestLine e' ↔ e = e' := fun e he e' he' =>
    (hdelimited e (List.mem_mergeSort.mp he)).digestLine_eq_iff
      (hdelimited' e' (List.mem_mergeSort.mp he'))
  rw [Json.map_eq_map_iff, Json.forall₂_congr_of_mem hentries, List.forall₂_eq_eq_eq] at hlines
  exact (byName_eq_iff hfirst).mp hlines

-- a colon in a name, or a line feed in a hash, and the text is that of another table
example : digestLines [("a:b", "1")] = digestLines [("a", "b:1")] := by cbv
example : digestLines [("a", "1\nb:2")] = digestLines [("a", "1"), ("b", "2")] := by cbv

end Tables

/-! ## The hash of a table -/

/-- The hash tells two byte strings apart. -/
def Blake3.Separates (bytes bytes' : List UInt8) : Prop :=
  hexDigest bytes = hexDigest bytes' → bytes = bytes'

theorem Hex.mem_padded {c : Char} {width n : Nat} (hc : c ∈ padded width n) :
    ∃ v, v < 16 ∧ c = digit v := by
  induction width generalizing n with
  | zero => exact nomatch hc
  | succ width ih =>
      rw [padded, List.mem_append, List.mem_singleton] at hc
      rcases hc with hhigh | hlow
      · exact ih hhigh
      · exact ⟨n % 16, Nat.mod_lt n (by decide), hlow⟩

theorem Blake3.printable_hexDigest (message : List UInt8) :
    ∀ c ∈ (hexDigest message).toList, Json.Printable c := by
  intro c hc
  rw [hexDigest, Hex.encode, String.toList_ofList, List.mem_flatMap] at hc
  obtain ⟨byte, -, hdigit⟩ := hc
  obtain ⟨v, hv, rfl⟩ := Hex.mem_padded hdigit
  exact Json.printable_digit hv

/-- The names of sections and their hashes can be told apart in the text of a table. -/
theorem Sections.delimited_digests (s : Sections) : ∀ e ∈ s.digests, Delimited e := by
  have hnames : ∀ m ∈ s.members, ':' ∉ m.1.toList ∧ '\n' ∉ m.1.toList := by
    obtain ⟨grid, stage, checked⟩ := s
    cases stage <;> cases checked <;> simp [members]
  have hdigest (value : Json) : '\n' ∉ (sectionDigest value).toList := fun hbreak =>
    absurd (Blake3.printable_hexDigest _ _ hbreak) (by decide)
  rw [digests, List.forall_mem_map]
  exact fun m hm => ⟨hnames m hm, hdigest m.2⟩

section Tables

variable {first second : List (String × String)} (hfirst : (first.map Prod.fst).Nodup)
  (hsecond : (second.map Prod.fst).Nodup) (hdelimited : ∀ e ∈ first, Delimited e)
  (hdelimited' : ∀ e ∈ second, Delimited e)

include hfirst hsecond hdelimited hdelimited'

theorem textBytes_digestLines_eq_iff :
    textBytes (digestLines first) = textBytes (digestLines second)
      ↔ ∀ name, first.lookup name = second.lookup name := by
  rw [textBytes_injective.eq_iff, digestLines_eq_iff hfirst hdelimited hdelimited',
    ← forall_lookup_eq_iff_perm hfirst hsecond]

/-- Tables that the hash tells apart are known by their hashes. -/
theorem tableDigest_eq_iff
    (happart : Blake3.Separates (textBytes (digestLines first)) (textBytes (digestLines second))) :
    tableDigest first = tableDigest second ↔ ∀ name, first.lookup name = second.lookup name := by
  rw [← textBytes_digestLines_eq_iff hfirst hsecond hdelimited hdelimited']
  exact ⟨happart, congrArg Blake3.hexDigest⟩

end Tables

/-- **Equal bytes for equal tables.** The bytes that are hashed for a table are the same in
whichever order its entries were made. Those of two tables with delimited entries are equal exactly
if the tables are, name by name, and so are their hashes, unless they collide. The table of a solve
has delimited entries, so two solves have one hash of the table exactly if all their sections have
the same hashes. -/
theorem table_bytes_exact (first second : List (String × String))
    (hfirst : (first.map Prod.fst).Nodup) (hsecond : (second.map Prod.fst).Nodup) :
    (first.Perm second → textBytes (digestLines first) = textBytes (digestLines second))
      ∧ ((∀ e ∈ first, Delimited e) → (∀ e ∈ second, Delimited e) →
          (textBytes (digestLines first) = textBytes (digestLines second)
            ↔ ∀ name, first.lookup name = second.lookup name)
          ∧ (Blake3.Separates (textBytes (digestLines first)) (textBytes (digestLines second)) →
            (tableDigest first = tableDigest second
              ↔ ∀ name, first.lookup name = second.lookup name)))
      ∧ ∀ s s' : Solution,
          Blake3.Separates (textBytes (digestLines s.digests)) (textBytes (digestLines s'.digests)) →
          (s.tableDigest = s'.tableDigest
            ↔ ∀ name, s.digests.lookup name = s'.digests.lookup name) := by
  refine ⟨fun h => congrArg textBytes (digestLines_eq_of_perm hfirst h),
    fun hdelimited hdelimited' => ⟨?_, ?_⟩, fun s s' happart => ?_⟩
  · exact textBytes_digestLines_eq_iff hfirst hsecond hdelimited hdelimited'
  · exact tableDigest_eq_iff hfirst hsecond hdelimited hdelimited'
  · exact tableDigest_eq_iff s.sections.distinct_digests s'.sections.distinct_digests
      s.sections.delimited_digests s'.sections.delimited_digests happart

/-- A table in another order has the same bytes, and the table without entries has another hash
than one with an entry. -/
theorem table_bytes_exact_reordered :
    let first := [("search", "2"), ("grid", "1")]
    let second := [("grid", "1"), ("search", "2")]
    let single := [("grid", "1")]
    (first.map Prod.fst).Nodup ∧ (second.map Prod.fst).Nodup ∧ (single.map Prod.fst).Nodup
      ∧ first.Perm second ∧ (∀ e ∈ single, Delimited e)
      ∧ Blake3.Separates (textBytes (digestLines single)) (textBytes (digestLines []))
      ∧ textBytes (digestLines first) = textBytes (digestLines second)
      ∧ tableDigest single ≠ tableDigest [] := by
  intro first second single
  have hfirst : (first.map Prod.fst).Nodup := by decide
  have hsecond : (second.map Prod.fst).Nodup := by decide
  have hsingle : (single.map Prod.fst).Nodup := by decide
  have hperm : first.Perm second := List.Perm.swap _ _ _
  have hdelimited : ∀ e ∈ single, Delimited e := by decide
  have happart :
      Blake3.Separates (textBytes (digestLines single)) (textBytes (digestLines [])) := by
    have hbytes : textBytes (digestLines single) = [103, 114, 105, 100, 58, 49] := by
      decide +kernel
    have hnone : textBytes (digestLines []) = [] := by decide +kernel
    rw [hbytes, hnone]
    exact fun h => absurd h (by decide +kernel)
  obtain ⟨horder, -, -⟩ := table_bytes_exact first second hfirst hsecond
  obtain ⟨-, htables, -⟩ := table_bytes_exact single [] hsingle List.nodup_nil
  obtain ⟨-, hhash⟩ := htables hdelimited (List.forall_mem_nil _)
  refine ⟨hfirst, hsecond, hsingle, hperm, hdelimited, happart, horder hperm, fun h => ?_⟩
  exact nomatch (hhash happart).mp h "grid"

end SegmentFit
