import Mathlib.Data.List.Nodup
import SegmentFit.Difference

/-!
# Differences — when a comparison finds none

Two objects have no difference if each has the keys of the other one and their values have
none, key by key (`differences_obj_eq_nil_iff`); two lists if they are of one length and
their items have none, place by place (`differences_arr_eq_nil_iff`). Neither depends on the
order of the members.

A value without binary numbers whose objects name no key twice (`Plain`) has no difference
from itself (`Plain.differences_self`). One with an undefined number has, and so may one with
a key that is named twice, since every value of that key is compared with the first.
-/

namespace SegmentFit

theorem CodeText.ofString_injective : Function.Injective CodeText.ofString :=
  Function.LeftInverse.injective CodeText.shown_ofString

namespace Json

/-! ## Members -/

/-- In an object without repeated keys, what is looked up is what is there. -/
theorem lookup_eq_some_of_mem {members : List (CodeText × Json)}
    (hkeys : (members.map Prod.fst).Nodup) {key : CodeText} {v : Json} (h : (key, v) ∈ members) :
    lookup key members = some v := by
  induction members with
  | nil => exact nomatch h
  | cons m rest ih =>
      rw [List.map_cons, List.nodup_cons] at hkeys
      rw [lookup]
      rcases List.mem_cons.mp h with rfl | hmem
      · exact if_pos rfl
      · -- the key of a later member is not that of the first one
        have hne : m.1 ≠ key := by
          intro heq
          exact hkeys.1 (List.mem_map.mpr ⟨(key, v), hmem, heq.symm⟩)
        rw [if_neg hne]
        exact ih hkeys.2 hmem

section Put

variable {key : CodeText} (v : Json) {members : List (CodeText × Json)}

/-- A new member is put behind the others. -/
theorem put_of_notMem (h : key ∉ members.map Prod.fst) :
    put key v members = members ++ [(key, v)] := by
  induction members with
  | nil => rfl
  | cons m rest ih =>
      rw [List.map_cons, List.mem_cons, not_or] at h
      rw [put, if_neg (Ne.symm h.1), ih h.2, List.cons_append]

/-- A member that is there already keeps its place. -/
theorem map_fst_put_of_mem (h : key ∈ members.map Prod.fst) :
    (put key v members).map Prod.fst = members.map Prod.fst := by
  induction members with
  | nil => exact nomatch h
  | cons m rest ih =>
      rw [put]
      by_cases hkey : m.1 = key
      · rw [if_pos hkey, List.map_cons, List.map_cons]
      · have hrest := (List.mem_cons.mp h).resolve_left (Ne.symm hkey)
        rw [if_neg hkey, List.map_cons, List.map_cons, ih hrest]

variable {v} in
/-- What is in an object after a member was put there is that member or was there before. -/
theorem mem_of_mem_put {m : CodeText × Json} (h : m ∈ put key v members) :
    m = (key, v) ∨ m ∈ members := by
  induction members with
  | nil => exact Or.inl (List.mem_singleton.mp h)
  | cons m' rest ih =>
      rw [put] at h
      by_cases hkey : m'.1 = key
      · rw [if_pos hkey, List.mem_cons] at h
        exact h.imp (fun hm => hkey ▸ hm) (List.mem_cons_of_mem m')
      · rw [if_neg hkey, List.mem_cons] at h
        rcases h with rfl | hmem
        · exact Or.inr List.mem_cons_self
        · exact (ih hmem).imp_right (List.mem_cons_of_mem m')

theorem nodup_put (h : (members.map Prod.fst).Nodup) (key : CodeText) :
    ((put key v members).map Prod.fst).Nodup := by
  by_cases hkey : key ∈ members.map Prod.fst
  · rw [map_fst_put_of_mem v hkey]
    exact h
  · rw [put_of_notMem v hkey, List.map_append, List.map_singleton, ← List.concat_eq_append]
    exact h.concat hkey

end Put

/-- The member of an object that is named by a string. -/
theorem lookup_ofString (name : String) (members : List (String × Json)) :
    lookup (CodeText.ofString name)
      (members.map fun (name, value) => (CodeText.ofString name, value)) = members.lookup name := by
  induction members with
  | nil => rfl
  | cons m rest ih =>
      rw [List.map_cons, lookup, List.lookup_cons, ih]
      by_cases hname : m.1 = name
      · have hbeq : (name == m.1) = true := beq_iff_eq.mpr hname.symm
        rw [if_pos (congrArg CodeText.ofString hname), hbeq]
      · have hbeq : (name == m.1) = false := beq_eq_false_iff_ne.mpr (Ne.symm hname)
        rw [if_neg fun h => hname (CodeText.ofString_injective h), hbeq]

/-! ## Objects and lists -/

/-- A difference is named for keys exactly if there are any. -/
theorem named_eq_nil_iff {name : List CodeText → Difference} {keys : List CodeText} :
    named name keys = [] ↔ keys = [] := by
  cases keys with
  | nil => exact iff_of_true rfl rfl
  | cons key rest => exact iff_of_false (List.cons_ne_nil _ _) (List.cons_ne_nil _ _)

/-- No key is missing exactly if each of them is found on the other side. -/
theorem missingKeys_eq_nil_iff {members others : List (CodeText × Json)} :
    missingKeys members others = [] ↔ ∀ m ∈ members, (lookup m.1 others).isSome = true := by
  rw [missingKeys, ← List.length_eq_zero_iff, List.length_mergeSort, List.length_eq_zero_iff,
    List.filter_eq_nil_iff, List.forall_mem_map]
  simp only [Option.isNone_iff_eq_none, ← Option.isSome_iff_ne_none]

/-- **Members have no difference** exactly if those with one key have none. -/
theorem memberDifferences_eq_nil_iff {path : CodeText} {left right : List (CodeText × Json)} :
    (∀ found ∈ memberDifferences path right left, found.2 = [])
      ↔ ∀ m ∈ left, ∀ w, lookup m.1 right = some w →
          differences (memberPath path m.1) m.2 w = [] := by
  induction left with
  | nil => exact iff_of_true nofun nofun
  | cons m rest ih =>
      rw [memberDifferences, List.forall_mem_cons, ← ih]
      cases hlookup : lookup m.1 right with
      | none => simp
      | some w => simp

/-- **Objects without a difference** have the same keys, and their values have none. -/
theorem differences_obj_eq_nil_iff {path : CodeText} {left right : List (CodeText × Json)} :
    differences path (.obj left) (.obj right) = []
      ↔ (∀ m ∈ left, ∃ w, lookup m.1 right = some w
            ∧ differences (memberPath path m.1) m.2 w = [])
        ∧ ∀ m ∈ right, (lookup m.1 left).isSome = true := by
  rw [differences, List.append_eq_nil_iff, List.append_eq_nil_iff, named_eq_nil_iff,
    named_eq_nil_iff, missingKeys_eq_nil_iff, missingKeys_eq_nil_iff, List.flatMap_eq_nil_iff]
  simp only [List.mem_mergeSort, memberDifferences_eq_nil_iff]
  constructor
  · rintro ⟨⟨hleft, hright⟩, hvalues⟩
    refine ⟨fun m hm => ?_, hright⟩
    obtain ⟨w, hw⟩ := Option.isSome_iff_exists.mp (hleft m hm)
    exact ⟨w, hw, hvalues m hm w hw⟩
  · rintro ⟨hleft, hright⟩
    refine ⟨⟨fun m hm => ?_, hright⟩, fun m hm w hw => ?_⟩
    · obtain ⟨w, hw, -⟩ := hleft m hm
      exact Option.isSome_iff_exists.mpr ⟨w, hw⟩
    · obtain ⟨w', hw', hnone⟩ := hleft m hm
      obtain rfl : w' = w := Option.some.inj (hw'.symm.trans hw)
      exact hnone

section Object

variable {path : CodeText} {members members' : List (String × Json)}

/-- **Objects have no difference** exactly if they have the same keys and no member with one. -/
theorem differences_object_eq_nil_iff :
    differences path (object members) (object members') = []
      ↔ (∀ m ∈ members, ∃ w, members'.lookup m.1 = some w
            ∧ differences (memberPath path (CodeText.ofString m.1)) m.2 w = [])
        ∧ ∀ m ∈ members', (members.lookup m.1).isSome = true := by
  rw [object, object, differences_obj_eq_nil_iff, List.forall_mem_map, List.forall_mem_map]
  simp only [lookup_ofString]

/-- Objects without a difference have the same keys. -/
theorem isSome_lookup_eq (h : differences path (object members) (object members') = [])
    (name : String) : (members.lookup name).isSome = (members'.lookup name).isSome := by
  obtain ⟨hleft, hright⟩ := differences_object_eq_nil_iff.mp h
  rw [Bool.eq_iff_iff]
  constructor
  · intro hname
    obtain ⟨m, hm, hkey⟩ := List.lookup_isSome_iff.mp hname
    obtain ⟨w, hw, -⟩ := hleft m hm
    rw [beq_iff_eq.mp hkey, hw]
    rfl
  · intro hname
    obtain ⟨m, hm, hkey⟩ := List.lookup_isSome_iff.mp hname
    rw [beq_iff_eq.mp hkey]
    exact hright m hm

/-- Objects without a difference have none below any of their keys. -/
theorem differences_lookup_eq_nil
    (h : differences path (object members) (object members') = []) (name : String) {v w : Json}
    (hv : members.lookup name = some v) (hw : members'.lookup name = some w) :
    differences (memberPath path (CodeText.ofString name)) v w = [] := by
  obtain ⟨before, after, hsplit, -⟩ := List.lookup_eq_some_iff.mp hv
  have hmem : (name, v) ∈ members := by
    rw [hsplit]
    exact List.mem_append_right before List.mem_cons_self
  obtain ⟨w', hw', hnone⟩ := (differences_object_eq_nil_iff.mp h).1 (name, v) hmem
  obtain rfl : w' = w := Option.some.inj (hw'.symm.trans hw)
  exact hnone

end Object

/-- **Items have no difference** exactly if those at one place have none. -/
theorem itemDifferences_eq_nil_iff {path : CodeText} {i : Nat} {left right : List Json} :
    itemDifferences path i right left = []
      ↔ ∀ j v w, left[j]? = some v → right[j]? = some w →
          differences (itemPath path (i + j)) v w = [] := by
  induction left generalizing i right with
  | nil => exact iff_of_true rfl nofun
  | cons v rest ih =>
      cases right with
      | nil => exact iff_of_true rfl fun _ _ _ _ hw => nomatch hw
      | cons w others =>
          rw [itemDifferences, List.append_eq_nil_iff, ih]
          constructor
          · rintro ⟨hhere, hlater⟩ j v' w' hv hw
            cases j with
            | zero =>
                obtain rfl : v = v' := Option.some.inj hv
                obtain rfl : w = w' := Option.some.inj hw
                exact hhere
            | succ j =>
                have hplace : i + (j + 1) = i + 1 + j := by omega
                rw [hplace]
                exact hlater j v' w' hv hw
          · intro hall
            refine ⟨hall 0 v w rfl rfl, fun j v' w' hv hw => ?_⟩
            have hplace : i + 1 + j = i + (j + 1) := by omega
            rw [hplace]
            exact hall (j + 1) v' w' hv hw

/-- **Lists without a difference** have the same length, and their items have none. -/
theorem differences_arr_eq_nil_iff {path : CodeText} {left right : List Json} :
    differences path (.arr left) (.arr right) = []
      ↔ left.length = right.length ∧ ∀ j v w, left[j]? = some v → right[j]? = some w →
          differences (itemPath path j) v w = [] := by
  rw [differences]
  by_cases hlength : left.length = right.length
  · rw [if_pos hlength, and_iff_right hlength, itemDifferences_eq_nil_iff]
    simp only [Nat.zero_add]
  · rw [if_neg hlength]
    exact iff_of_false (List.cons_ne_nil _ _) fun h => hlength h.1

/-- Strings without a difference are equal. -/
theorem differences_string_eq_nil_iff {path : CodeText} {s t : String} :
    differences path (string s) (string t) = [] ↔ s = t := by
  have hleaf : differences path (string s) (string t)
      = if CodeText.ofString s == CodeText.ofString t then []
        else [.values path (string s) (string t)] := rfl
  rw [hleaf]
  by_cases hst : s = t
  · rw [if_pos (beq_iff_eq.mpr (congrArg CodeText.ofString hst))]
    exact iff_of_true rfl hst
  · rw [if_neg fun h => hst (CodeText.ofString_injective (beq_iff_eq.mp h))]
    exact iff_of_false (List.cons_ne_nil _ _) hst

/-! ## Values that are compared with themselves -/

/-- No binary number occurs, and no object names a key twice. -/
inductive Plain : Json → Prop where
  | null : Plain .null
  | bool (b : Bool) : Plain (.bool b)
  | int (n : Int) : Plain (.int n)
  | str (s : CodeText) : Plain (.str s)
  | arr {items : List Json} (hitems : ∀ v ∈ items, Plain v) : Plain (.arr items)
  | obj {members : List (CodeText × Json)} (hkeys : (members.map Prod.fst).Nodup)
      (hvalues : ∀ m ∈ members, Plain m.2) : Plain (.obj members)

namespace Plain

@[simp] theorem of_bool (b : Bool) : (Json.bool b).Plain :=
  bool b

@[simp] theorem of_nat (n : Nat) : (Json.nat n).Plain :=
  int n

@[simp] theorem of_string (s : String) : (Json.string s).Plain :=
  str (CodeText.ofString s)

/-- A value that may be missing is plain if it is when it is there. -/
@[simp] theorem optional_iff {α : Type} {encode : α → Json} {a : Option α} :
    (Json.optional encode a).Plain ↔ ∀ x, a = some x → (encode x).Plain := by
  cases a with
  | none => exact iff_of_true null nofun
  | some x => exact ⟨fun h y hy => Option.some.inj hy ▸ h, fun h => h x rfl⟩

/-- A list is plain if its items are. -/
@[simp] theorem arr_iff {items : List Json} : (Json.arr items).Plain ↔ ∀ v ∈ items, v.Plain := by
  constructor
  · intro h
    cases h with
    | arr hitems => exact hitems
  · exact arr

/-- An object is plain if its names are distinct and its values plain. -/
@[simp] theorem object_iff {members : List (String × Json)} :
    (Json.object members).Plain ↔ (members.map Prod.fst).Nodup ∧ ∀ m ∈ members, m.2.Plain := by
  have hkeys : (members.map fun m => (CodeText.ofString m.1, m.2)).map Prod.fst
      = (members.map Prod.fst).map CodeText.ofString := by
    rw [List.map_map, List.map_map]
    rfl
  have hvalues : (∀ m ∈ members.map fun m => (CodeText.ofString m.1, m.2), m.2.Plain)
      ↔ ∀ m ∈ members, m.2.Plain :=
    List.forall_mem_map
  rw [← List.nodup_map_iff CodeText.ofString_injective, ← hkeys, ← hvalues]
  constructor
  · intro h
    cases h with
    | obj hnodup hplain => exact ⟨hnodup, hplain⟩
  · exact fun h => obj h.1 h.2

end Plain

theorem Plain.differences_self {v : Json} (h : v.Plain) (path : CodeText) :
    differences path v v = [] := by
  induction h generalizing path with
  | null => rfl
  | bool b => cases b <;> rfl
  | int n =>
      have hsame : sameLeaf (.int n) (.int n) = true := beq_self_eq_true n
      exact if_pos hsame
  | str s =>
      have hsame : sameLeaf (.str s) (.str s) = true := beq_self_eq_true s
      exact if_pos hsame
  | arr hitems ih =>
      refine differences_arr_eq_nil_iff.mpr ⟨rfl, fun j v w hv hw => ?_⟩
      obtain rfl : v = w := Option.some.inj (hv.symm.trans hw)
      exact ih v (List.mem_of_getElem? hv) _
  | obj hkeys hvalues ih =>
      have hlookup {m : CodeText × Json} (hm : m ∈ _) := lookup_eq_some_of_mem hkeys hm
      refine differences_obj_eq_nil_iff.mpr ⟨fun m hm => ⟨m.2, hlookup hm, ih m hm _⟩, ?_⟩
      intro m hm
      rw [hlookup hm]
      rfl

end Json

end SegmentFit
