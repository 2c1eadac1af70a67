import Mathlib.Data.List.OfFn
import SegmentFit.Proofs.Frames
import SegmentFit.Table

/-!
# Cell bytes — the arrays that have them

An array of truth values or of integers that are not negative has cell bytes, and so a
hash, as long as its shape can be framed (`Tensor.Encodable`). Every table of a solve is such
an array. What is hashed is a table's entries and nothing else (`tensor_congr`).
-/

namespace SegmentFit

namespace Tensor

variable {array : Tensor}

/-- An array has bytes iff it is one of truth values or integers, none of them negative if they
have signs, and its shape can be framed: the frame and the words of the entries. -/
theorem bytes?_eq_ok_iff {bytes : List UInt8} :
    array.bytes? = .ok bytes
      ↔ array.kind ≠ .other ∧ (array.kind = .signed → ∀ v ∈ array.entries, 0 ≤ v)
        ∧ Frame.InRange array.shape
        ∧ bytes = Frame.encode array.shape ++ array.entries.flatMap wordBytes := by
  have hsigned : (array.kind = .signed → ∀ v ∈ array.entries, 0 ≤ v)
      ↔ ¬ (array.kind = .signed ∧ array.entries.any (· < 0) = true) := by
    simp only [not_and, List.any_eq_true, decide_eq_true_eq, not_exists, Int.not_lt]
  rw [bytes?, hsigned]
  constructor
  · intro h
    split at h
    · cases h
    · next hkind =>
      split at h
      · cases h
      · next hnonneg =>
        split at h
        · cases h
        · next shape hshape =>
          obtain ⟨numbers, hrange, hnumbers, rfl⟩ := Frame.encode?_eq_ok_iff.mp hshape
          have hsame : array.shape = numbers :=
            (List.map_inj_right fun _ _ => Int.ofNat.inj).mp hnumbers
          rw [hsame]
          exact ⟨hkind, hnonneg, hrange, (Except.ok.inj h).symm⟩
  · rintro ⟨hkind, hnonneg, hrange, rfl⟩
    rw [if_neg hkind, if_neg hnonneg, Frame.encode?_map hrange]

/-- An array of truth values or of integers that are not negative, with a shape that can be
framed. -/
structure Encodable (array : Tensor) : Prop where
  kind : array.kind ≠ .other
  entries : ∀ v ∈ array.entries, 0 ≤ v
  shape : Frame.InRange array.shape

theorem Encodable.bytes?_eq (h : array.Encodable) :
    array.bytes? = .ok (Frame.encode array.shape ++ array.entries.flatMap wordBytes) :=
  bytes?_eq_ok_iff.mpr ⟨h.kind, fun _ => h.entries, h.shape, rfl⟩

theorem Encodable.digest?_isOk (h : array.Encodable) :
    ∃ digest, array.digest? = .ok digest := by
  rw [digest?, h.bytes?_eq]
  exact ⟨_, rfl⟩

end Tensor

namespace Table

variable {α β : Type} {h w : Nat}

/-- The values of a table, row by row. -/
theorem map_rows (f : α → β) (t : Table α h w) :
    t.rows.toList.map (fun row => row.toList.map f)
      = List.ofFn fun i : Fin h => List.ofFn fun j : Fin w => f (t.entry i j) := by
  have hrow (i : Fin h) : t.rows[i].toList.map f
      = List.ofFn fun j : Fin w => f (t.entry i j) := by
    refine List.ext_getElem (by simp) fun j hj hj' => ?_
    simp [entry]
  refine List.ext_getElem (by simp) fun i hi hi' => ?_
  have hlt : i < h := by simpa using hi
  simpa using hrow ⟨i, hlt⟩

theorem entries_tensor (kind : EntryKind) (value : α → Int) (t : Table α h w) :
    (t.tensor kind value).entries
      = (List.ofFn fun i : Fin h => List.ofFn fun j : Fin w => value (t.entry i j)).flatten := by
  rw [← map_rows]
  rfl

theorem flatten_toLists_map (value : α → Int) (t : Table α h w) (kind : EntryKind) :
    (t.map value).toLists.flatten = (t.tensor kind value).entries := by
  have hrows : (t.map value).toLists = t.rows.toList.map fun row => row.toList.map value := by
    show (t.rows.map fun row => row.map value).toList.map Vector.toList = _
    rw [Vector.toList_map, List.map_map]
    refine List.map_congr_left fun row _ => ?_
    exact Vector.toList_map
  rw [hrows]
  rfl

theorem place_lt (i : Fin h) (j : Fin w) : i * w + j < h * w := by
  calc i * w + j < i * w + w := Nat.add_lt_add_left j.isLt _
    _ = (i + 1) * w := (Nat.succ_mul i w).symm
    _ ≤ h * w := Nat.mul_le_mul_right w i.isLt

theorem divNat_place (i : Fin h) (j : Fin w) :
    (⟨i * w + j, place_lt i j⟩ : Fin (h * w)).divNat = i := by
  have hw : 0 < w := Nat.zero_lt_of_lt j.isLt
  refine Fin.ext ?_
  show (i * w + j) / w = i
  rw [Nat.add_comm, Nat.add_mul_div_right _ _ hw, Nat.div_eq_of_lt j.isLt, Nat.zero_add]

theorem modNat_place (i : Fin h) (j : Fin w) :
    (⟨i * w + j, place_lt i j⟩ : Fin (h * w)).modNat = j := by
  refine Fin.ext ?_
  show (i * w + j) % w = j
  rw [Nat.add_comm, Nat.add_mul_mod_self_right, Nat.mod_eq_of_lt j.isLt]

/-- The entries row after row: a place is told apart by its quotient and its remainder. -/
theorem flatten_toLists (t : Table α h w) :
    t.toLists.flatten = List.ofFn fun x : Fin (h * w) => t.entry x.divNat x.modNat := by
  have hrows : t.toLists = List.ofFn fun i => List.ofFn fun j => t.entry i j := by
    have hmap := t.map_rows id
    simp only [List.map_id] at hmap
    exact hmap
  rw [hrows, List.ofFn_mul]
  simp only [divNat_place, modNat_place]

/-- The array holds the entries of the table row after row. -/
theorem getD_entries_tensor (kind : EntryKind) (value : α → Int) (t : Table α h w) (i : Fin h)
    (j : Fin w) (d : Int) :
    (t.tensor kind value).entries.toArray.getD (i * w + j) d = value (t.entry i j) := by
  have hget : (t.tensor kind value).entries[i * w + j]? = some (value (t.entry i j)) := by
    rw [← flatten_toLists_map, flatten_toLists, List.getElem?_ofFn, dif_pos (place_lt i j),
      divNat_place, modNat_place, entry_map]
  rw [Array.getD_eq_getD_getElem?, List.getElem?_toArray, hget]
  rfl

/-- Two tables with the same values make the same array. -/
theorem tensor_congr {kind : EntryKind} {value : α → Int} {value' : β → Int}
    {t : Table α h w} {u : Table β h w}
    (same : ∀ i j, value (t.entry i j) = value' (u.entry i j)) :
    t.tensor kind value = u.tensor kind value' := by
  have hentries : (t.tensor kind value).entries = (u.tensor kind value').entries := by
    rw [entries_tensor, entries_tensor]
    simp only [same]
  show Tensor.mk kind [h, w] (t.tensor kind value).entries
    = Tensor.mk kind [h, w] (u.tensor kind value').entries
  rw [hentries]

theorem exists_of_mem_entries_tensor {kind : EntryKind} {value : α → Int} {t : Table α h w}
    {v : Int} (hv : v ∈ (t.tensor kind value).entries) : ∃ i j, v = value (t.entry i j) := by
  rw [entries_tensor] at hv
  obtain ⟨row, hrow, hmem⟩ := List.mem_flatten.mp hv
  obtain ⟨i, rfl⟩ := List.mem_ofFn.mp hrow
  obtain ⟨j, rfl⟩ := List.mem_ofFn.mp hmem
  exact ⟨i, j, rfl⟩

/-- A table of values that are not negative has a hash, if its height and its width are in
range. -/
theorem digest?_tensor_isOk {kind : EntryKind} {value : α → Int} {t : Table α h w}
    (hkind : kind ≠ .other) (hvalues : ∀ i j, 0 ≤ value (t.entry i j))
    (hheight : h < Varint.limit) (hwidth : w < Varint.limit) :
    ∃ digest, (t.tensor kind value).digest? = .ok digest := by
  refine Tensor.Encodable.digest?_isOk ⟨hkind, fun v hv => ?_, Frame.inRange_pair hheight hwidth⟩
  obtain ⟨i, j, rfl⟩ := exists_of_mem_entries_tensor hv
  exact hvalues i j

end Table

end SegmentFit
