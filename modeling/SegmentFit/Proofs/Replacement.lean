import SegmentFit.Proofs.JsonEquality

/-!
# Replaced parts — one difference, at the place of the part

A position in a value is a list of steps, to a member or to an item (`Step`), and names the part
that is there (`at?`). If that part is replaced by a value that is not equal to it, and the two are
not compared by parts, then the comparison with the value so changed finds one difference. It is
at the place of the part and shows the two (`replacement_localized`).

The induction follows the position. At each step everything beside the part is compared with
itself, and no key comes or goes.
-/

namespace SegmentFit

namespace Json

inductive Step where
  | member (key : CodeText)
  | item (i : Nat)

namespace Step

def text : Step → CodeText
  | .member key => CodePoint.char '.' :: key
  | .item i => CodeText.ofString s!"[{i}]"

/-- The path of what is one step below a path. -/
def below (path : CodeText) : Step → CodeText
  | .member key => memberPath path key
  | .item i => itemPath path i

/-- Below a path that is not empty, a step puts its text behind it. -/
theorem below_eq {path : CodeText} (hpath : path ≠ []) (step : Step) :
    step.below path = path ++ step.text := by
  cases step with
  | member key => exact if_neg (mt List.isEmpty_iff.mp hpath)
  | item i => rfl

end Step

/-- The part of a value that is at a position, if there is one. -/
def at? (v : Json) : List Step → Option Json
  | [] => some v
  | step :: rest =>
    match v, step with
    | .obj members, .member key => (lookup key members).bind fun part => part.at? rest
    | .arr items, .item i => items[i]?.bind fun part => part.at? rest
    | _, _ => none

/-- A value with another one in the place of the part at a position. -/
def replaced (v : Json) (position : List Step) (w : Json) : Json :=
  match position with
  | [] => w
  | step :: rest =>
    match v, step with
    | .obj members, .member key =>
      match lookup key members with
      | some part => .obj (put key (part.replaced rest w) members)
      | none => v
    | .arr items, .item i =>
      match items[i]? with
      | some part => .arr (items.set i (part.replaced rest w))
      | none => v
    | _, _ => v

/-- The places of the steps, as a path shows them. -/
def positionText (position : List Step) : CodeText :=
  position.flatMap Step.text

variable {v w part : Json} {rest : List Step}

/-- Beyond a first step there is a part of an object or of a list. -/
theorem at?_cons_eq_some {step : Step} (h : v.at? (step :: rest) = some w) :
    (∃ members key part, v = .obj members ∧ step = .member key ∧ lookup key members = some part
        ∧ part.at? rest = some w)
      ∨ ∃ items i part, v = .arr items ∧ step = .item i ∧ items[i]? = some part
        ∧ part.at? rest = some w := by
  unfold at? at h
  split at h
  · next members key =>
      obtain ⟨part, hpart, hrest⟩ := Option.bind_eq_some_iff.mp h
      exact Or.inl ⟨members, key, part, rfl, rfl, hpart, hrest⟩
  · next items i =>
      obtain ⟨part, hpart, hrest⟩ := Option.bind_eq_some_iff.mp h
      exact Or.inr ⟨items, i, part, rfl, rfl, hpart, hrest⟩
  · exact nomatch h

/-! ## Steps to members -/

section Members

variable {path key : CodeText} {members right before after : List (CodeText × Json)}

/-- What is put under a key is found there, and the other members stay. -/
theorem lookup_put (key other : CodeText) (v : Json) (members : List (CodeText × Json)) :
    lookup other (put key v members) = if key = other then some v else lookup other members := by
  induction members with
  | nil => rfl
  | cons m more ih =>
      rw [put]
      by_cases hkey : m.1 = key
      · rw [if_pos hkey, lookup, lookup, hkey]
        split <;> rfl
      · rw [if_neg hkey, lookup, lookup, ih]
        by_cases hother : m.1 = other
        · rw [if_pos hother, if_pos hother, if_neg fun h => hkey (hother.trans h.symm)]
        · rw [if_neg hother, if_neg hother]

/-- Members are compared one by one. -/
theorem memberDifferences_append (path : CodeText) (right before after : List (CodeText × Json)) :
    memberDifferences path right (before ++ after)
      = memberDifferences path right before ++ memberDifferences path right after := by
  induction before with
  | nil => rfl
  | cons m more ih =>
      rw [List.cons_append, memberDifferences, memberDifferences, ih]
      cases lookup m.1 right <;> rfl

/-- What is looked up is found exactly if the key is there. -/
theorem isSome_lookup_iff : (lookup key members).isSome = true ↔ key ∈ members.map Prod.fst := by
  induction members with
  | nil => exact iff_of_false nofun nofun
  | cons m more ih =>
      rw [lookup, List.map_cons, List.mem_cons]
      by_cases hkey : m.1 = key
      · rw [if_pos hkey]
        exact iff_of_true rfl (Or.inl hkey.symm)
      · rw [if_neg hkey, ih, or_iff_right (Ne.symm hkey)]

/-- Objects with the same keys miss none. -/
theorem missingKeys_of_keys {others : List (CodeText × Json)}
    (h : members.map Prod.fst = others.map Prod.fst) : missingKeys members others = [] := by
  rw [missingKeys_eq_nil_iff]
  intro m hm
  rw [isSome_lookup_iff, ← h]
  exact List.mem_map_of_mem hm

/-- If one member is replaced, only that one has a difference. -/
theorem flatMap_memberDifferences_put {ds : List Difference} (hv : (Json.obj members).Plain)
    (hpart : (key, part) ∈ members) (hds : differences (memberPath path key) part w = ds) :
    (memberDifferences path (put key w members) members).flatMap (fun found => found.2) = ds := by
  have hself {m : CodeText × Json} (hm : m ∈ members) (hkey : m.1 ≠ key) (w' : Json)
      (hw' : lookup m.1 (put key w members) = some w') :
      differences (memberPath path m.1) m.2 w' = [] := by
    rw [lookup_put, if_neg (Ne.symm hkey), lookup_eq_some_of_mem hv.nodup_keys hm] at hw'
    obtain rfl := Option.some.inj hw'
    exact (hv.of_mem_members hm).differences_self _
  have hfound : lookup key (put key w members) = some w := by
    rw [lookup_put, if_pos rfl]
  generalize put key w members = right at hself hfound
  have hkeys := hv.nodup_keys
  obtain ⟨before, after, rfl⟩ := List.append_of_mem hpart
  rw [List.map_append, List.map_cons, List.nodup_middle, List.nodup_cons,
    ← List.map_append] at hkeys
  have hne {m : CodeText × Json} (hm : m ∈ before ++ after) : m.1 ≠ key :=
    fun h => hkeys.1 (List.mem_map.mpr ⟨m, hm, h⟩)
  have hbefore : (memberDifferences path right before).flatMap (fun found => found.2) = [] := by
    rw [List.flatMap_eq_nil_iff, memberDifferences_eq_nil_iff]
    exact fun m hm => hself (List.mem_append_left _ hm) (hne (List.mem_append_left _ hm))
  have hafter : (memberDifferences path right after).flatMap (fun found => found.2) = [] := by
    rw [List.flatMap_eq_nil_iff, memberDifferences_eq_nil_iff]
    intro m hm
    exact hself (List.mem_append_right _ (List.mem_cons_of_mem _ hm))
      (hne (List.mem_append_right _ hm))
  rw [memberDifferences_append, memberDifferences, hfound, List.flatMap_append, hbefore]
  dsimp only
  rw [List.flatMap_cons, hafter, hds, List.nil_append, List.append_nil]

/-- If one member is replaced, no key comes or goes, and the others have no difference. -/
theorem differences_put {d : Difference} (hv : (Json.obj members).Plain)
    (hpart : lookup key members = some part)
    (hd : differences (memberPath path key) part w = [d]) :
    differences path (.obj members) (.obj (put key w members)) = [d] := by
  have hkey : key ∈ members.map Prod.fst := isSome_lookup_iff.mp (hpart ▸ rfl)
  have hkeys := map_fst_put_of_mem w hkey
  have hmem := (lookup_eq_some_iff hv.nodup_keys).mp hpart
  rw [differences, missingKeys_of_keys hkeys, missingKeys_of_keys hkeys.symm]
  refine List.perm_singleton.mp ?_
  rw [← flatMap_memberDifferences_put hv hmem hd]
  exact (List.mergeSort_perm _ _).flatMap_right _

end Members

/-! ## Steps to items -/

section Items

variable {path : CodeText} {items : List Json} {i : Nat}

/-- Items do not differ from themselves. -/
theorem itemDifferences_self (h : ∀ v ∈ items, v.Plain) (start : Nat) :
    itemDifferences path start items items = [] := by
  rw [itemDifferences_eq_nil_iff]
  intro j v w hv hw
  obtain rfl : v = w := Option.some.inj (hv.symm.trans hw)
  exact (h v (List.mem_of_getElem? hv)).differences_self _

/-- If one item is replaced, only that one has differences. -/
theorem itemDifferences_set (h : ∀ v ∈ items, v.Plain) (hpart : items[i]? = some part)
    (start : Nat) :
    itemDifferences path start (items.set i w) items
      = differences (itemPath path (start + i)) part w := by
  induction items generalizing i start with
  | nil => exact nomatch hpart
  | cons v more ih =>
      obtain ⟨hv, hmore⟩ := List.forall_mem_cons.mp h
      cases i with
      | zero =>
          obtain rfl : v = part := Option.some.inj hpart
          rw [List.set_cons_zero, itemDifferences, itemDifferences_self hmore, List.append_nil,
            Nat.add_zero]
      | succ i =>
          rw [List.set_cons_succ, itemDifferences, hv.differences_self, List.nil_append,
            ih hmore hpart, Nat.add_right_comm, Nat.add_assoc]

/-- **An item in place of another one** differs where it stands, and nowhere else. -/
theorem differences_set (h : ∀ v ∈ items, v.Plain) (hpart : items[i]? = some part) :
    differences path (.arr items) (.arr (items.set i w))
      = differences (itemPath path i) part w := by
  rw [differences, if_pos List.length_set.symm, itemDifferences_set h hpart, Nat.zero_add]

end Items

/-! ## Positions -/

/-- A step to a member puts what is replaced below it under its key. -/
theorem replaced_member {key : CodeText} {members : List (CodeText × Json)}
    (h : lookup key members = some part) (rest : List Step) (w : Json) :
    (Json.obj members).replaced (.member key :: rest) w
      = .obj (put key (part.replaced rest w) members) := by
  simp only [replaced, h]

/-- A step to an item sets what is replaced below it in its place. -/
theorem replaced_item {i : Nat} {items : List Json} (h : items[i]? = some part) (rest : List Step)
    (w : Json) :
    (Json.arr items).replaced (.item i :: rest) w = .arr (items.set i (part.replaced rest w)) := by
  simp only [replaced, h]

/-- The part that was put in the place of another one is found there. -/
theorem at?_replaced {position : List Step} (h : v.at? position = some part) (w : Json) :
    (v.replaced position w).at? position = some w := by
  induction position generalizing v with
  | nil => rfl
  | cons step rest ih =>
      rcases at?_cons_eq_some h with ⟨members, key, inner, rfl, rfl, hinner, hrest⟩
        | ⟨items, i, inner, rfl, rfl, hinner, hrest⟩
      · rw [replaced_member hinner, at?, lookup_put, if_pos rfl]
        exact ih hrest
      · obtain ⟨hi, -⟩ := List.getElem?_eq_some_iff.mp hinner
        rw [replaced_item hinner, at?, List.getElem?_set_self hi]
        exact ih hrest

/-- **A replaced part is the one difference**, at its place. -/
theorem differences_replaced {position : List Step} (hv : v.Plain) (hw : w.Plain)
    (hpart : v.at? position = some part) (hne : ¬ part.Equal w) (hparts : ¬ ByParts part w)
    {path : CodeText} (hpath : path ≠ []) :
    differences path v (v.replaced position w)
      = [.values (path ++ positionText position) part w] := by
  induction position generalizing v path with
  | nil =>
      obtain rfl : v = part := Option.some.inj hpart
      have hleaf : ¬ sameLeaf v w = true := fun h => hne (equal_of_sameLeaf hv hw h)
      rw [positionText, List.flatMap_nil, List.append_nil]
      exact (differences_of_not_byParts hparts path).trans (if_neg hleaf)
  | cons step rest ih =>
      have hbelow := step.below_eq hpath
      have hne' : step.below path ≠ [] := by
        rw [hbelow]
        exact List.append_ne_nil_of_left_ne_nil hpath _
      have hplace : step.below path ++ positionText rest = path ++ positionText (step :: rest) := by
        rw [hbelow, positionText, positionText, List.flatMap_cons, List.append_assoc]
      rcases at?_cons_eq_some hpart with ⟨members, key, inner, rfl, rfl, hinner, hrest⟩
        | ⟨items, i, inner, rfl, rfl, hinner, hrest⟩
      · have hmem := (lookup_eq_some_iff hv.nodup_keys).mp hinner
        rw [replaced_member hinner, ← hplace]
        exact differences_put hv hinner (ih (hv.of_mem_members hmem) hrest hne')
      · have hitems := Plain.arr_iff.mp hv
        rw [replaced_item hinner, differences_set hitems hinner, ← hplace]
        exact ih (hitems inner (List.mem_of_getElem? hinner)) hrest hne'

/-- **A replacement is localized.** Where a part of a value is replaced by a value that is not
equal to it, and the two are not both objects or both lists, there is exactly one difference. Its
text is the path that the comparison starts at, the keys and places that lead to the part, and the
two values. -/
theorem replacement_localized (hv : v.Plain) (hw : w.Plain) {position : List Step}
    (hpart : v.at? position = some part) (hne : ¬ part.Equal w) (hparts : ¬ ByParts part w)
    {path : CodeText} (hpath : path ≠ []) :
    (v.replaced position w).at? position = some w
      ∧ (differences path v (v.replaced position w)).map Difference.text
        = [path ++ positionText position
            ++ CodeText.ofString (": " ++ part.text display ++ " != " ++ w.text display)] := by
  refine ⟨at?_replaced hpart w, ?_⟩
  rw [differences_replaced hv hw hpart hne hparts hpath]
  rfl

/-- A flag that is two levels deep, replaced by its opposite. -/
theorem replacement_localized_flag :
    let v := object [("a", .arr [nat 1, object [("b", .bool true), ("c", nat 3)]]), ("d", nat 4)]
    let position : List Step := [.member "a", .item 1, .member "b"]
    v.Plain ∧ (nat 2).Plain ∧ v.at? position = some (.bool true)
      ∧ ¬ (Json.bool true).Equal (nat 2) ∧ ¬ ByParts (.bool true) (nat 2)
      ∧ ("r" : CodeText) ≠ []
      ∧ (differences "r" v (v.replaced position (nat 2))).map Difference.text
        = ["r.a[1].b: True != 2"] := by
  intro v position
  have hv : v.Plain := by simp [v]
  have hw : (nat 2).Plain := Plain.of_nat 2
  have hpart : v.at? position = some (.bool true) := by rfl
  have hne : ¬ (Json.bool true).Equal (nat 2) := by
    intro h
    have hsame := h.sameLeaf nofun
    exact absurd hsame (by decide)
  have hpath : ("r" : CodeText) ≠ [] := by decide
  obtain ⟨-, htext⟩ := replacement_localized hv hw hpart hne nofun hpath
  refine ⟨hv, hw, hpart, hne, nofun, hpath, htext.trans ?_⟩
  decide +kernel

end Json

end SegmentFit
