import SegmentFit.Proofs.Difference
import SegmentFit.Proofs.FileTrees
import SegmentFit.Proofs.TextFiles

/-!
# Reading records — what a file of records holds

A file holds records (`FileTree.HoldsRecords`) if it is a text, and its lines that are not blank
are the JSON texts of the records, in order. These are the records that are loaded
(`FileTree.loadRecords_eq_ok_iff`).

No object of a value that is read names a key twice (`Json.distinct_of_read`).
-/

namespace SegmentFit

/-! ## Files of records -/

/-- The lines of a text that are not blank, with its ends of lines unified. -/
def Text.writtenLines (text : List Char) : List (List Char) :=
  (Text.lines (Text.unifyNewlines text)).filter fun line => !Text.allBlank line

variable {depth : Nat} {records : List Json}

/-- Records are read from the lines that are not blank. -/
theorem readRecords_eq_ok_iff {lines : List (List Char)} :
    readRecords depth lines = .ok records
      ↔ List.Forall₂ (fun line v => Json.read depth line = .ok v)
          (lines.filter fun line => !Text.allBlank line) records := by
  rw [readRecords, mapM_eq_ok_iff]
  simp only [readRecord, mapError_eq_ok_iff]

/-- Records are read from bytes if these are text, and a value is read from each written line. -/
theorem recordsOf_eq_ok_iff {bytes : List UInt8} :
    recordsOf depth bytes = .ok records
      ↔ ∃ text, Utf8.decode bytes = .ok text
        ∧ List.Forall₂ (fun line v => Json.read depth line = .ok v) (Text.writtenLines text)
            records := by
  rw [recordsOf]
  constructor
  · intro h
    cases hread : Utf8.decodeBlocks none (Blake3.pieces blockSize bytes) with
    | mk text fault =>
        rw [hread] at h
        cases fault with
        | none =>
            exact ⟨text, Utf8.decodeBlocks_pieces_eq_iff.mp hread, readRecords_eq_ok_iff.mp h⟩
        | some fault =>
            obtain ⟨_, _, hfault⟩ := bind_eq_ok_iff.mp h
            exact nomatch hfault
  · rintro ⟨text, htext, hlines⟩
    rw [Utf8.decodeBlocks_pieces_eq_iff.mpr htext]
    exact readRecords_eq_ok_iff.mpr hlines

namespace FileTree

variable {t : FileTree} {path : String}

/-- The lines of a file, but for the blank ones, are the JSON texts of records. -/
def HoldsRecords (t : FileTree) (depth : Nat) (path : String) (records : List Json) : Prop :=
  ∃ bytes text, t.read path = .ok bytes ∧ Utf8.decode bytes = .ok text
    ∧ List.Forall₂ (fun line v => Json.read depth line = .ok v) (Text.writtenLines text) records

/-- **The records that are loaded** are those that the file holds. -/
theorem loadRecords_eq_ok_iff :
    t.loadRecords depth path = .ok records ↔ t.HoldsRecords depth path records := by
  rw [loadRecords, bind_eq_ok_iff]
  simp only [mapError_eq_ok_iff, recordsOf_eq_ok_iff]
  constructor
  · rintro ⟨bytes, hbytes, text, htext, hlines⟩
    exact ⟨bytes, text, hbytes, htext, hlines⟩
  · rintro ⟨bytes, text, hbytes, htext, hlines⟩
    exact ⟨bytes, hbytes, text, htext, hlines⟩

end FileTree

/-! ## Values that are read -/

namespace Json

/-- No object in a value names a key twice. -/
inductive Distinct : Json → Prop where
  | null : Distinct .null
  | bool (b : Bool) : Distinct (.bool b)
  | int (n : Int) : Distinct (.int n)
  | real (x : Binary64) : Distinct (.real x)
  | str (s : CodeText) : Distinct (.str s)
  | arr {items : List Json} (hitems : ∀ v ∈ items, Distinct v) : Distinct (.arr items)
  | obj {members : List (CodeText × Json)} (hkeys : (members.map Prod.fst).Nodup)
      (hvalues : ∀ m ∈ members, Distinct m.2) : Distinct (.obj members)

/-- No binary number occurs in a value. -/
inductive Exact : Json → Prop where
  | null : Exact .null
  | bool (b : Bool) : Exact (.bool b)
  | int (n : Int) : Exact (.int n)
  | str (s : CodeText) : Exact (.str s)
  | arr {items : List Json} (hitems : ∀ v ∈ items, Exact v) : Exact (.arr items)
  | obj {members : List (CodeText × Json)} (hvalues : ∀ m ∈ members, Exact m.2) :
      Exact (.obj members)

variable {v : Json} {text rest : List Char} {members members' : List (CodeText × Json)}

/-- A value without repeated names and without fractions is plain. -/
theorem Distinct.plain (h : v.Distinct) (hexact : v.Exact) : v.Plain := by
  induction h with
  | null => exact .null
  | bool b => exact .bool b
  | int n => exact .int n
  | real x => exact nomatch hexact
  | str s => exact .str s
  | arr hitems ih =>
      cases hexact with
      | arr hexact => exact .arr fun v hv => ih v hv (hexact v hv)
  | obj hkeys hvalues ih =>
      cases hexact with
      | obj hexact => exact .obj hkeys fun m hm => ih m hm (hexact m hm)

/-- A plain value has no fractions. -/
theorem Plain.exact (h : v.Plain) : v.Exact := by
  induction h with
  | null => exact .null
  | bool b => exact .bool b
  | int n => exact .int n
  | str s => exact .str s
  | arr hitems ih => exact .arr ih
  | obj hkeys hvalues ih => exact .obj ih

/-- Putting a member repeats no name. -/
theorem Distinct.put (h : (Json.obj members).Distinct) (hv : v.Distinct) (key : CodeText) :
    (Json.obj (put key v members)).Distinct := by
  cases h with
  | obj hkeys hvalues =>
      refine .obj (nodup_put v hkeys key) fun m hm => ?_
      rcases mem_of_mem_put hm with rfl | hm
      · exact hv
      · exact hvalues m hm

theorem distinct_of_readConstant? (h : readConstant? text = some (v, rest)) : v.Distinct := by
  obtain ⟨⟨name, v'⟩, hmem, hfound⟩ := List.exists_of_findSome?_eq_some h
  have hconstants : ∀ entry ∈ constants, entry.2.Distinct := by
    simp only [constants, List.forall_mem_cons]
    exact ⟨.null, .bool _, .bool _, .real _, .real _, .real _, nofun⟩
  dsimp only at hfound
  split at hfound
  · obtain ⟨rfl, -⟩ := Prod.mk.inj (Option.some.inj hfound)
    exact hconstants _ hmem
  · exact nomatch hfound

theorem distinct_of_number {negative : Bool} {whole fraction : List Char} {exponent : Option Int}
    (h : number negative whole fraction exponent = .ok v) : v.Distinct := by
  unfold number at h
  dsimp only at h
  split at h
  · split at h
    · exact nomatch h
    · obtain rfl := Except.ok.inj h
      exact .int _
  · obtain rfl := Except.ok.inj h
    exact .real _

theorem distinct_of_readNumber (h : readNumber text = .ok (v, rest)) : v.Distinct := by
  unfold readNumber at h
  dsimp only at h
  split at h
  · exact nomatch h
  · obtain ⟨v', hnumber, heq⟩ := map_eq_ok_iff.mp h
    obtain ⟨rfl, -⟩ := Prod.mk.inj heq
    exact distinct_of_number hnumber

section Step

variable {fuel : Nat}
  (hvalue : ∀ depth text v rest, readValue fuel depth text = .ok (v, rest) → v.Distinct)
  (hitems : ∀ depth text items rest, readItems fuel depth text = .ok (items, rest) →
    (Json.arr items).Distinct)
  (hmembers : ∀ depth members text members' rest, (Json.obj members).Distinct →
    readMembers fuel depth members text = .ok (members', rest) → (Json.obj members').Distinct)

include hitems hmembers in
/-- **A value that is read** repeats no name, if none below it does. -/
theorem distinct_of_readValue_succ {depth : Nat}
    (h : readValue (fuel + 1) depth text = .ok (v, rest)) : v.Distinct := by
  unfold readValue at h
  split at h
  · obtain ⟨⟨cs, left⟩, -, heq⟩ := map_eq_ok_iff.mp h
    obtain ⟨rfl, -⟩ := Prod.mk.inj heq
    exact .str cs
  · exact nomatch h
  · split at h
    · obtain ⟨rfl, -⟩ := Prod.mk.inj (Except.ok.inj h)
      exact .arr nofun
    · obtain ⟨⟨items, left⟩, hread, heq⟩ := map_eq_ok_iff.mp h
      obtain ⟨rfl, -⟩ := Prod.mk.inj heq
      exact hitems _ _ _ _ hread
  · exact nomatch h
  · have hempty : (Json.obj []).Distinct := .obj List.nodup_nil nofun
    split at h
    · obtain ⟨rfl, -⟩ := Prod.mk.inj (Except.ok.inj h)
      exact hempty
    · obtain ⟨⟨members, left⟩, hread, heq⟩ := map_eq_ok_iff.mp h
      obtain ⟨rfl, -⟩ := Prod.mk.inj heq
      exact hmembers _ _ _ _ _ hempty hread
  · split at h
    · next hfound =>
      exact distinct_of_readConstant? (hfound.trans (congrArg some (Except.ok.inj h)))
    · exact distinct_of_readNumber h

include hvalue hitems in
/-- Items that are read repeat no name, if no value among them does. -/
theorem distinct_of_readItems_succ {depth : Nat} {items : List Json}
    (h : readItems (fuel + 1) depth text = .ok (items, rest)) : (Json.arr items).Distinct := by
  unfold readItems at h
  obtain ⟨⟨v, left⟩, hread, h⟩ := bind_eq_ok_iff.mp h
  have hv := hvalue _ _ _ _ hread
  dsimp only at h
  split at h
  · obtain ⟨rfl, -⟩ := Prod.mk.inj (Except.ok.inj h)
    exact .arr (List.forall_mem_singleton.mpr hv)
  · obtain ⟨⟨more, left⟩, hread, h⟩ := bind_eq_ok_iff.mp h
    obtain ⟨rfl, -⟩ := Prod.mk.inj (Except.ok.inj h)
    cases hitems _ _ _ _ hread with
    | arr hmore => exact .arr (List.forall_mem_cons.mpr ⟨hv, hmore⟩)
  · exact nomatch h

include hvalue hmembers in
/-- Members that are read are put one by one, so none of their names is repeated. -/
theorem distinct_of_readMembers_succ {depth : Nat} (hdistinct : (Json.obj members).Distinct)
    (h : readMembers (fuel + 1) depth members text = .ok (members', rest)) :
    (Json.obj members').Distinct := by
  unfold readMembers at h
  split at h
  · obtain ⟨⟨key, left⟩, -, h⟩ := bind_eq_ok_iff.mp h
    dsimp only at h
    split at h
    · obtain ⟨⟨v, left⟩, hread, h⟩ := bind_eq_ok_iff.mp h
      have hput := hdistinct.put (hvalue _ _ _ _ hread) key
      dsimp only at h
      split at h
      · obtain ⟨rfl, -⟩ := Prod.mk.inj (Except.ok.inj h)
        exact hput
      · exact hmembers _ _ _ _ _ hput h
      · exact nomatch h
    · exact nomatch h
  · exact nomatch h

end Step

/-- None of the readers repeats a name, by induction on the steps that are left to it. -/
theorem distinct_of_readers (fuel : Nat) :
    (∀ depth text v rest, readValue fuel depth text = .ok (v, rest) → v.Distinct)
    ∧ (∀ depth text items rest, readItems fuel depth text = .ok (items, rest) →
        (Json.arr items).Distinct)
    ∧ ∀ depth members text members' rest, (Json.obj members).Distinct →
        readMembers fuel depth members text = .ok (members', rest) →
          (Json.obj members').Distinct := by
  induction fuel with
  | zero => exact ⟨nofun, nofun, nofun⟩
  | succ fuel ih =>
      obtain ⟨hvalue, hitems, hmembers⟩ := ih
      exact ⟨fun _ _ _ _ => distinct_of_readValue_succ hitems hmembers,
        fun _ _ _ _ => distinct_of_readItems_succ hvalue hitems,
        fun _ _ _ _ _ => distinct_of_readMembers_succ hvalue hmembers⟩

/-- **A value that is read** names no key twice. -/
theorem distinct_of_read {depth : Nat} (h : read depth text = .ok v) : v.Distinct := by
  unfold read at h
  split at h
  · exact nomatch h
  · split at h
    · exact nomatch h
    · next v' rest hread =>
        split at h
        · obtain rfl := Except.ok.inj h
          exact (distinct_of_readers _).1 _ _ _ _ hread
        · exact nomatch h

end Json

/-- The records of a file name no key twice. -/
theorem FileTree.HoldsRecords.distinct {t : FileTree} {depth : Nat} {path : String}
    {records : List Json} (h : t.HoldsRecords depth path records) : ∀ v ∈ records, v.Distinct := by
  obtain ⟨bytes, text, -, -, hlines⟩ := h
  have hread := hlines.flip.imp fun v line h => And.intro (Json.distinct_of_read h) h
  exact ((List.forall₂_and_left _ _).mp hread).1

end SegmentFit
