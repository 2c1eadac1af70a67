import Mathlib.Data.List.Perm.Basic
import SegmentFit.Proofs.JsonReading

/-!
# Canonical JSON — one text for all orders of the members

Two values are the same up to the order of members (`Json.Reordered`) exactly if they are equal
once the members of every object are in the order of their keys (`sorted_eq_iff`): distinct
keys have one order, since texts are ordered by their code points (`CodeText.le_antisymm`).

Sorting keeps a value legible (`Legible.sorted`), so its compact text can be read back, and the
text is that of no other value. Hence two legible values have one canonical text exactly if they
are the same up to the order of members (`canonical_exact`).
-/

namespace SegmentFit

/-! ## The order of texts -/

/-- A code point is known by its number. -/
theorem CodePoint.toNat_injective : Function.Injective CodePoint.toNat := by
  intro p q h
  cases p with
  | char c =>
      have hc := Json.toNat_valid c
      cases q with
      | char d => exact congrArg CodePoint.char (Char.toNat_inj.mp h)
      | surrogate offset =>
          have hoffset := offset.isLt
          simp only [toNat] at h
          omega
  | surrogate offset =>
      have hoffset := offset.isLt
      cases q with
      | char d =>
          have hd := Json.toNat_valid d
          simp only [toNat] at h
          omega
      | surrogate other =>
          simp only [toNat] at h
          exact congrArg CodePoint.surrogate (Fin.ext (by omega))

namespace CodeText

/-- Texts are ordered by the first code point in which they differ. -/
theorem le_cons_iff {p q : CodePoint} {s t : CodeText} :
    le (p :: s) (q :: t) = true ↔ p.toNat < q.toNat ∨ p = q ∧ le s t = true := by
  rw [le, Bool.or_eq_true, Bool.and_eq_true, decide_eq_true_eq, beq_iff_eq,
    CodePoint.toNat_injective.eq_iff]

/-- Any two texts are in order, one way or the other. -/
theorem le_total (s t : CodeText) : (le s t || le t s) = true := by
  induction s generalizing t with
  | nil => rfl
  | cons p s ih =>
      cases t with
      | nil => rfl
      | cons q t =>
          rw [Bool.or_eq_true, le_cons_iff, le_cons_iff]
          rcases Nat.lt_trichotomy p.toNat q.toNat with hlt | heq | hgt
          · exact Or.inl (Or.inl hlt)
          · have hpq := CodePoint.toNat_injective heq
            rcases Bool.or_eq_true_iff.mp (ih t) with hst | hts
            · exact Or.inl (Or.inr ⟨hpq, hst⟩)
            · exact Or.inr (Or.inr ⟨hpq.symm, hts⟩)
          · exact Or.inr (Or.inl hgt)

theorem le_trans {s t u : CodeText} (hst : le s t = true) (htu : le t u = true) :
    le s u = true := by
  induction s generalizing t u with
  | nil => rfl
  | cons p s ih =>
      cases t with
      | nil => exact nomatch hst
      | cons q t =>
          cases u with
          | nil => exact nomatch htu
          | cons r u =>
              rw [le_cons_iff] at *
              rcases hst with hlt | ⟨rfl, hst⟩
              · rcases htu with hlt' | ⟨rfl, -⟩
                · exact Or.inl (Nat.lt_trans hlt hlt')
                · exact Or.inl hlt
              · rcases htu with hlt' | ⟨rfl, htu⟩
                · exact Or.inl hlt'
                · exact Or.inr ⟨rfl, ih hst htu⟩

/-- Texts that are in order both ways are the same. -/
theorem le_antisymm {s t : CodeText} (hst : le s t = true) (hts : le t s = true) : s = t := by
  induction s generalizing t with
  | nil =>
      cases t with
      | nil => rfl
      | cons q t => exact nomatch hts
  | cons p s ih =>
      cases t with
      | nil => exact nomatch hst
      | cons q t =>
          rw [le_cons_iff] at *
          rcases hst with hlt | ⟨rfl, hst⟩
          · rcases hts with hlt' | ⟨rfl, -⟩
            · omega
            · omega
          · rcases hts with hlt' | ⟨-, hts⟩
            · omega
            · rw [ih hst hts]

end CodeText

/-! ## Lists in the order of their keys -/

/-- Lists with distinct keys are the same in the order of the keys iff they are permutations of
each other, whatever the order is. -/
theorem mergeSort_keys_eq_iff {κ β : Type} (le : κ → κ → Bool)
    (htrans : ∀ {a b c}, le a b = true → le b c = true → le a c = true)
    (htotal : ∀ a b, (le a b || le b a) = true)
    (hantisymm : ∀ {a b}, le a b = true → le b a = true → a = b) {l l' : List (κ × β)}
    (hkeys : (l.map Prod.fst).Nodup) :
    (l.mergeSort fun a b => le a.1 b.1) = (l'.mergeSort fun a b => le a.1 b.1) ↔ l.Perm l' := by
  have hsorted (l : List (κ × β)) :
      (l.mergeSort fun a b => le a.1 b.1).Pairwise fun a b => le a.1 b.1 = true := by
    refine List.pairwise_mergeSort ?_ ?_ l
    · exact fun _ _ _ hab hbc => htrans hab hbc
    · exact fun a b => htotal a.1 b.1
  have hperm (l : List (κ × β)) : (l.mergeSort fun a b => le a.1 b.1).Perm l :=
    List.mergeSort_perm l _
  constructor
  · intro h
    have hfirst := (hperm l).symm
    rw [h] at hfirst
    exact hfirst.trans (hperm l')
  · intro h
    have hboth := (hperm l).trans (h.trans (hperm l').symm)
    refine hboth.eq_of_pairwise ?_ (hsorted l) (hsorted l')
    intro a b ha hb hab hba
    have ha' := (hperm l).mem_iff.mp ha
    have hb' := (hperm l).mem_iff.mp (hboth.mem_iff.mpr hb)
    exact List.inj_on_of_nodup_map hkeys ha' hb' (hantisymm hab hba)

namespace Json

/-! ## The order of members -/

/-- Two values are the same up to the order of the members of objects, at any depth. -/
inductive Reordered : Json → Json → Prop where
  | null : Reordered .null .null
  | bool (b : Bool) : Reordered (.bool b) (.bool b)
  | int (n : Int) : Reordered (.int n) (.int n)
  | str (text : CodeText) : Reordered (.str text) (.str text)
  | arr {items items' : List Json} (hitems : List.Forall₂ Reordered items items') :
      Reordered (.arr items) (.arr items')
  | obj {members others members' : List (CodeText × Json)} (horder : members.Perm others)
      (hkeys : others.map Prod.fst = members'.map Prod.fst)
      (hvalues : List.Forall₂ Reordered (others.map Prod.snd) (members'.map Prod.snd)) :
      Reordered (.obj members) (.obj members')

/-- A member with its value sorted. -/
def sortedMember (m : CodeText × Json) : CodeText × Json :=
  (m.1, sorted m.2)

/-- Items are sorted one by one, and keep their places. -/
theorem sortedItems_eq (items : List Json) : sortedItems items = items.map sorted := by
  induction items with
  | nil => rfl
  | cons v rest ih => rw [sortedItems, ih, List.map_cons]

/-- Members are sorted one by one, and keep their places. -/
theorem sortedMembers_eq (members : List (CodeText × Json)) :
    sortedMembers members = members.map sortedMember := by
  induction members with
  | nil => rfl
  | cons m rest ih =>
      rw [sortedMembers, ih, List.map_cons]
      rfl

/-- Members in the order of their keys. -/
def inOrder (members : List (CodeText × Json)) : List (CodeText × Json) :=
  members.mergeSort fun a b => CodeText.le a.1 b.1

/-- An object is sorted in its members and then by their names. -/
theorem sorted_obj (members : List (CodeText × Json)) :
    sorted (.obj members) = .obj (inOrder (members.map sortedMember)) := by
  rw [sorted, sortedMembers_eq, inOrder]

/-- Putting members in order loses none of them. -/
theorem inOrder_perm (members : List (CodeText × Json)) : (inOrder members).Perm members :=
  List.mergeSort_perm members _

/-- Sorting the values of members leaves their names. -/
theorem keys_sortedMember (members : List (CodeText × Json)) :
    (members.map sortedMember).map Prod.fst = members.map Prod.fst := by
  rw [List.map_map]
  rfl

/-- Members with distinct keys have one order. -/
theorem inOrder_eq_iff {members members' : List (CodeText × Json)}
    (hkeys : (members.map Prod.fst).Nodup) :
    inOrder members = inOrder members' ↔ members.Perm members' :=
  mergeSort_keys_eq_iff CodeText.le CodeText.le_trans CodeText.le_total CodeText.le_antisymm hkeys

/-- A permutation of the image of a list is the image of a permutation. -/
theorem exists_perm_of_map_perm {α β : Type} {f : α → β} {l l' : List α}
    (h : (l.map f).Perm (l'.map f)) : ∃ others, l.Perm others ∧ others.map f = l'.map f := by
  have hcomp := congrFun (congrFun (List.eq_map_comp_perm f) (l'.map f)) l
  obtain ⟨others, heq, hperm⟩ := hcomp ▸ h.symm
  exact ⟨others, hperm.symm, heq.symm⟩

/-- Two lists have one image exactly if they have the same images place by place. -/
theorem map_eq_map_iff {α β : Type} {f : α → β} {l l' : List α} :
    l.map f = l'.map f ↔ List.Forall₂ (fun a b => f a = f b) l l' := by
  rw [← List.forall₂_eq_eq_eq, List.forall₂_map_left_iff, List.forall₂_map_right_iff]

/-- Lists are related place by place by any relation that says the same of their elements. -/
theorem forall₂_congr_of_mem {α : Type} {R S : α → α → Prop} {l l' : List α}
    (h : ∀ a ∈ l, ∀ b ∈ l', R a b ↔ S a b) : List.Forall₂ R l l' ↔ List.Forall₂ S l l' := by
  have hzip : (∀ {a b}, (a, b) ∈ l.zip l' → R a b) ↔ ∀ {a b}, (a, b) ∈ l.zip l' → S a b := by
    constructor
    · intro hR a b hab
      exact (h a (List.of_mem_zip hab).1 b (List.of_mem_zip hab).2).mp (hR hab)
    · intro hS a b hab
      exact (h a (List.of_mem_zip hab).1 b (List.of_mem_zip hab).2).mpr (hS hab)
  rw [List.forall₂_iff_zip, List.forall₂_iff_zip, hzip]

/-- Sorting leaves what is no list and no object as it is. -/
theorem eq_of_sorted_eq {v w : Json} (harr : ∀ items, v ≠ .arr items)
    (hobj : ∀ members, v ≠ .obj members) (h : v = sorted w) : v = w := by
  cases w with
  | arr items => exact absurd h (harr _)
  | obj members => exact absurd (h.trans (sorted_obj members)) (hobj _)
  | _ => exact h

/-- The values of sorted members are the sorted values. -/
theorem values_sortedMember (members : List (CodeText × Json)) :
    (members.map sortedMember).map Prod.snd = (members.map Prod.snd).map sorted := by
  rw [List.map_map, List.map_map]
  rfl

/-- Members are sorted to the same exactly if their names are, and their values. -/
theorem map_sortedMember_eq_iff {members members' : List (CodeText × Json)} :
    members.map sortedMember = members'.map sortedMember
      ↔ members.map Prod.fst = members'.map Prod.fst
        ∧ (members.map Prod.snd).map sorted = (members'.map Prod.snd).map sorted := by
  rw [← keys_sortedMember members, ← keys_sortedMember members', ← values_sortedMember,
    ← values_sortedMember]
  constructor
  · intro h
    exact ⟨congrArg (List.map Prod.fst) h, congrArg (List.map Prod.snd) h⟩
  · rintro ⟨hkeys, hvalues⟩
    rw [List.zip_of_prod hkeys hvalues, ← List.zip_of_prod rfl rfl]

/-- What is no list and no object is sorted as it is, and has no members to reorder. -/
theorem sorted_eq_iff_of_plain {v w : Json} (hv : v.Legible) (harr : ∀ items, v ≠ .arr items)
    (hobj : ∀ members, v ≠ .obj members) : sorted v = sorted w ↔ v.Reordered w := by
  have hplain : sorted v = v ∧ v.Reordered v := by
    cases hv with
    | null => exact ⟨rfl, .null⟩
    | bool b => exact ⟨rfl, .bool b⟩
    | @int n _ => exact ⟨rfl, .int n⟩
    | @str text _ => exact ⟨rfl, .str text⟩
    | arr _ => exact absurd rfl (harr _)
    | obj _ _ _ => exact absurd rfl (hobj _)
  obtain ⟨hsorted, hself⟩ := hplain
  constructor
  · intro h
    rw [hsorted] at h
    rw [← eq_of_sorted_eq harr hobj h]
    exact hself
  · intro h
    cases h with
    | arr _ => exact absurd rfl (harr _)
    | obj _ _ _ => exact absurd rfl (hobj _)
    | _ => rfl

/-- Items are sorted to the same exactly if each of them is the one on the other side, reordered. -/
theorem map_sorted_eq_iff {items items' : List Json}
    (h : ∀ v ∈ items, ∀ w ∈ items', sorted v = sorted w ↔ v.Reordered w) :
    items.map sorted = items'.map sorted ↔ List.Forall₂ Reordered items items' := by
  rw [map_eq_map_iff]
  exact forall₂_congr_of_mem h

/-- **Sorted values are equal** exactly if the values are the same up to the order of members. -/
theorem sorted_eq_iff {v : Json} (hv : v.Legible) {w : Json} (hw : w.Legible) :
    sorted v = sorted w ↔ v.Reordered w := by
  induction hv generalizing w with
  | null => exact sorted_eq_iff_of_plain .null nofun nofun
  | bool b => exact sorted_eq_iff_of_plain (.bool b) nofun nofun
  | int hdigits => exact sorted_eq_iff_of_plain (.int hdigits) nofun nofun
  | str htext => exact sorted_eq_iff_of_plain (.str htext) nofun nofun
  | @arr items hitems ih =>
      cases hw with
      | @arr items' hitems' =>
          have hparts := map_sorted_eq_iff fun v hv w hw => ih v hv (hitems' w hw)
          rw [sorted, sorted, Json.arr.injEq, sortedItems_eq, sortedItems_eq, hparts]
          constructor
          · exact .arr
          · rintro ⟨⟩
            assumption
      | _ => exact iff_of_false nofun nofun
  | @obj members hnames hkeys hvalues ih =>
      cases hw with
      | @obj members' hnames' hkeys' hvalues' =>
          -- The values are compared behind a permutation of the members, which the keys fix.
          have hparts {others : List (CodeText × Json)} (horder : members.Perm others) :
              (others.map Prod.snd).map sorted = (members'.map Prod.snd).map sorted
                ↔ List.Forall₂ Reordered (others.map Prod.snd) (members'.map Prod.snd) := by
            refine map_sorted_eq_iff fun v hv w hw => ?_
            obtain ⟨m, hm, rfl⟩ := List.mem_map.mp hv
            obtain ⟨m', hm', rfl⟩ := List.mem_map.mp hw
            exact ih m (horder.mem_iff.mpr hm) (hvalues' m' hm')
          rw [← keys_sortedMember] at hkeys
          rw [sorted_obj, sorted_obj, Json.obj.injEq, inOrder_eq_iff hkeys]
          constructor
          · intro h
            obtain ⟨others, horder, heq⟩ := exists_perm_of_map_perm h
            obtain ⟨hsame, hsorted⟩ := map_sortedMember_eq_iff.mp heq
            exact .obj horder hsame ((hparts horder).mp hsorted)
          · intro h
            cases h with
            | @obj _ others _ horder hsame hreordered =>
              have hsorted := (hparts horder).mpr hreordered
              rw [← map_sortedMember_eq_iff.mpr ⟨hsame, hsorted⟩]
              exact horder.map sortedMember
      | _ => exact iff_of_false nofun nofun

/-! ## Canonical texts -/

/-- Sorting keeps a value legible. -/
theorem Legible.sorted {v : Json} (hv : v.Legible) : v.sorted.Legible := by
  induction hv with
  | null => exact .null
  | bool b => exact .bool b
  | int hdigits => exact .int hdigits
  | str htext => exact .str htext
  | arr hitems ih =>
      rw [Json.sorted, sortedItems_eq]
      refine .arr ?_
      rw [List.forall_mem_map]
      exact ih
  | @obj members hnames hkeys hvalues ih =>
      have hperm := inOrder_perm (members.map sortedMember)
      rw [sorted_obj]
      refine .obj ?_ ?_ ?_
      · intro _ hm
        obtain ⟨m, hmem, rfl⟩ := List.mem_map.mp (hperm.mem_iff.mp hm)
        exact hnames m hmem
      · rw [(hperm.map Prod.fst).nodup_iff, keys_sortedMember]
        exact hkeys
      · intro _ hm
        obtain ⟨m, hmem, rfl⟩ := List.mem_map.mp (hperm.mem_iff.mp hm)
        exact ih m hmem

/-- The text of a legible value is that of no other one. -/
theorem render_injective {s : Spelling} (hs : s.IsText) {v w : Json} (hv : v.Legible)
    (hw : w.Legible) (h : render s v = render s w) : v = w := by
  have hread {u : Json} (hu : u.Legible) (hdepth : u.nesting ≤ max v.nesting w.nesting) :
      read (max v.nesting w.nesting) (render s u) = .ok u := by
    have hgap := read_render hs hu hdepth (List.forall_mem_nil _)
    rw [List.append_nil] at hgap
    exact hgap
  have hboth := hread hv (Nat.le_max_left _ _)
  rw [h, hread hw (Nat.le_max_right _ _)] at hboth
  exact (Except.ok.inj hboth).symm

/-- **A canonical text is that of one value up to the order of members.** -/
theorem canonical_exact {v w : Json} (hv : v.Legible) (hw : w.Legible) :
    v.canonical = w.canonical ↔ v.Reordered w := by
  rw [← sorted_eq_iff hv hw, canonical, canonical, text, text, String.ofList_inj]
  constructor
  · exact render_injective isText_compact hv.sorted hw.sorted
  · exact congrArg (render compact)

/-- Two members in either order have one canonical text. -/
theorem canonical_exact_swapped :
    ∃ v w : Json, v = .object [("ok", .bool true), ("mode", .string "pair")]
      ∧ w = .object [("mode", .string "pair"), ("ok", .bool true)]
      ∧ v.Legible ∧ w.Legible ∧ v.canonical = w.canonical := by
  have hv : Within 1 (.object [("ok", .bool true), ("mode", .string "pair")]) := by simp
  have hw : Within 1 (.object [("mode", .string "pair"), ("ok", .bool true)]) := by simp
  have hreordered : Reordered (.object [("ok", .bool true), ("mode", .string "pair")])
      (.object [("mode", .string "pair"), ("ok", .bool true)]) :=
    .obj (List.Perm.swap _ _ _) rfl (.cons (.str _) (.cons (.bool true) .nil))
  exact ⟨_, _, rfl, rfl, hv.legible, hw.legible,
    (canonical_exact hv.legible hw.legible).mpr hreordered⟩

end Json

end SegmentFit
