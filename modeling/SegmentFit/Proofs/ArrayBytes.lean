import Mathlib.Data.Int.ModEq
import SegmentFit.Grid
import SegmentFit.Proofs.CellBytes
import SegmentFit.Proofs.Poses

/-!
# Array bytes — what the bytes of an array tell of it

The bytes of an array start with the frame of its shape, which says where it ends, and go on
with four bytes for each entry. So they tell the shape, and every entry as far as it is kept
by its word (`Tensor.bytes?_inj`), and nothing else: arrays with the same shape and the same
words have the same bytes (`Tensor.Encodable.bytes?_eq_iff`). Nothing is lost of entries below
`2 ^ 32` (`Tensor.eq_of_congruent`). A grid has no other ones, and is known by its bytes
(`Grid.bytes?_inj`).
-/

namespace SegmentFit

/-- The integers that an array of a kind can hold. -/
def EntryKind.Holds : EntryKind → Int → Prop
  | .boolean, v => v = 0 ∨ v = 1
  | .unsigned, v => 0 ≤ v
  | .signed, _ => True
  | .other, _ => True

namespace Tensor

/-! ## Words -/

/-- Entry by entry, two lists are equal up to multiples of `2 ^ 32`. -/
def Congruent (entries entries' : List Int) : Prop :=
  List.Forall₂ (fun u v => u ≡ v [ZMOD 4294967296]) entries entries'

variable {entries entries' : List Int}

/-- Two values have the same word iff they are equal up to a multiple of `2 ^ 32`. -/
theorem wordBytes_eq_iff (u v : Int) : wordBytes u = wordBytes v ↔ u ≡ v [ZMOD 4294967296] := by
  constructor
  · intro h
    rw [wordBytes, wordBytes] at h
    simp only [List.cons.injEq, ← UInt8.toNat_inj, Nat.toUInt8_eq, UInt8.toNat_ofNat', and_true]
      at h
    obtain ⟨h0, h1, h2, h3⟩ := h
    show u % 4294967296 = v % 4294967296
    omega
  · intro h
    have hlow : u % 4294967296 = v % 4294967296 := h
    rw [wordBytes, wordBytes, hlow]

/-- Entries have the same bytes exactly if they are congruent, one by one: four bytes keep the value
modulo `2 ^ 32` and nothing else. -/
theorem flatMap_wordBytes_eq_iff :
    entries.flatMap wordBytes = entries'.flatMap wordBytes ↔ Congruent entries entries' := by
  induction entries generalizing entries' with
  | nil =>
      cases entries' with
      | nil => exact iff_of_true rfl .nil
      | cons v rest' => exact iff_of_false nofun nofun
  | cons u rest ih =>
      cases entries' with
      | nil => exact iff_of_false nofun nofun
      | cons v rest' =>
          rw [List.flatMap_cons, List.flatMap_cons, Congruent, List.forall₂_cons,
            ← wordBytes_eq_iff]
          constructor
          · intro h
            -- every word has four bytes
            obtain ⟨hword, hrest⟩ := List.append_inj h rfl
            exact ⟨hword, ih.mp hrest⟩
          · rintro ⟨hword, hrest⟩
            rw [hword, ih.mpr hrest]

/-- Below `2 ^ 32` there is one value for each word. -/
theorem eq_of_congruent (hcongruent : Congruent entries entries')
    (h : ∀ v ∈ entries, 0 ≤ v ∧ v < 4294967296) (h' : ∀ v ∈ entries', 0 ≤ v ∧ v < 4294967296) :
    entries = entries' := by
  induction hcongruent with
  | nil => rfl
  | @cons u v rest rest' hword _ ih =>
      rw [List.forall_mem_cons] at h h'
      obtain ⟨⟨hu, hlt⟩, hrest⟩ := h
      obtain ⟨⟨hv, hlt'⟩, hrest'⟩ := h'
      have hsame : u = v := by
        calc u = u % 4294967296 := (Int.emod_eq_of_lt hu hlt).symm
          _ = v % 4294967296 := hword
          _ = v := Int.emod_eq_of_lt hv hlt'
      rw [hsame, ih hrest hrest']

/-! ## Bytes -/

variable {array array' : Tensor} {bytes : List UInt8}

/-- **The bytes of an array tell its shape and its entries**, up to multiples of `2 ^ 32`. -/
theorem bytes?_inj (h : array.bytes? = .ok bytes) (h' : array'.bytes? = .ok bytes) :
    array.shape = array'.shape ∧ Congruent array.entries array'.entries := by
  obtain ⟨-, -, -, hbytes⟩ := bytes?_eq_ok_iff.mp h
  obtain ⟨-, -, -, hbytes'⟩ := bytes?_eq_ok_iff.mp h'
  obtain ⟨hshape, hentries⟩ := Frame.encode_append_inj (hbytes.symm.trans hbytes')
  exact ⟨hshape, flatMap_wordBytes_eq_iff.mp hentries⟩

/-- The kind of the entries leaves no trace, nor does what is above their words. -/
theorem Encodable.bytes?_eq_iff (h : array.Encodable) (h' : array'.Encodable) :
    array.bytes? = array'.bytes?
      ↔ array.shape = array'.shape ∧ Congruent array.entries array'.entries := by
  constructor
  · intro hsame
    exact bytes?_inj h.bytes?_eq (hsame.symm.trans h.bytes?_eq)
  · rintro ⟨hshape, hcongruent⟩
    rw [h.bytes?_eq, h'.bytes?_eq, hshape, flatMap_wordBytes_eq_iff.mpr hcongruent]

/-- Without negative entries, the shape alone decides whether an array has bytes. -/
theorem exists_bytes?_iff (hkind : array.kind ≠ .other) (hentries : ∀ v ∈ array.entries, 0 ≤ v) :
    (∃ bytes, array.bytes? = .ok bytes) ↔ Frame.InRange array.shape := by
  constructor
  · rintro ⟨bytes, h⟩
    obtain ⟨-, -, hrange, -⟩ := bytes?_eq_ok_iff.mp h
    exact hrange
  · intro hrange
    exact ⟨_, Encodable.bytes?_eq ⟨hkind, hentries, hrange⟩⟩

/-- A negative entry has a sign, and is refused before the shape is looked at. -/
theorem bytes?_eq_negativeEntry (hkind : array.kind ≠ .other)
    (hholds : ∀ v ∈ array.entries, array.kind.Holds v)
    (hnegative : ∃ v ∈ array.entries, v < 0) : array.bytes? = .error .negativeEntry := by
  obtain ⟨v, hv, hlt⟩ := hnegative
  have hany : array.entries.any (· < 0) = true :=
    List.any_eq_true.mpr ⟨v, hv, decide_eq_true hlt⟩
  have hsigned : array.kind = .signed := by
    have hheld := hholds v hv
    cases hcase : array.kind with
    | boolean =>
        rw [hcase] at hheld
        have hbit : v = 0 ∨ v = 1 := hheld
        omega
    | unsigned =>
        rw [hcase] at hheld
        have hle : 0 ≤ v := hheld
        omega
    | signed => rfl
    | other => exact absurd hcase hkind
  rw [bytes?, if_neg hkind, if_pos ⟨hsigned, hany⟩]

/-- The hash of an array is the hash of its bytes. -/
theorem exists_bytes_of_digest? {digest : String} (h : array.digest? = .ok digest) :
    ∃ bytes, array.bytes? = .ok bytes ∧ Blake3.hexDigest bytes = digest :=
  map_eq_ok_iff.mp h

end Tensor

/-! ## Grids -/

namespace Grid

variable (g : Grid)

theorem inRange_shape : Frame.InRange [g.side, g.side] := by
  have hside : g.side < Varint.limit := Nat.lt_of_succ_lt g.side_bound
  exact Frame.inRange_pair hside hside

theorem tensor_entries_bounds : ∀ v ∈ g.tensor.entries, 0 ≤ v ∧ v < 4294967296 := by
  intro v hv
  obtain ⟨i, j, rfl⟩ := Table.exists_of_mem_entries_tensor hv
  cases g.cells.entry i j <;> decide

/-- The cells of a grid can be encoded. -/
theorem encodable_tensor : g.tensor.Encodable where
  kind := EntryKind.noConfusion
  entries v hv := (g.tensor_entries_bounds v hv).1
  shape := g.inRange_shape

/-- **A grid is known by its bytes.** -/
theorem bytes?_inj {g g' : Grid} {bytes : List UInt8} (h : g.tensor.bytes? = .ok bytes)
    (h' : g'.tensor.bytes? = .ok bytes) : g = g' := by
  obtain ⟨hshape, hcongruent⟩ := Tensor.bytes?_inj h h'
  have hentries := Tensor.eq_of_congruent hcongruent g.tensor_entries_bounds
    g'.tensor_entries_bounds
  have htensor : g.tensor = g'.tensor := by
    show Tensor.mk .boolean g.tensor.shape g.tensor.entries
      = Tensor.mk .boolean g'.tensor.shape g'.tensor.entries
    rw [hshape, hentries]
  have hread := g.ofTensor_tensor
  rw [htensor, g'.ofTensor_tensor] at hread
  exact (Except.ok.inj hread).symm

end Grid

/-! ## Exactness -/

namespace Tensor

/-- **Array bytes**. Two arrays of truth values or integers, none of them negative, have the same
bytes iff they have the same shape and the same entries up to multiples of `2 ^ 32`; below
`2 ^ 32` the entries are the same, and so are two grids. Arrays whose shape cannot be framed have
no bytes, and neither have arrays with a negative entry, whatever their shape. -/
theorem array_bytes_exact :
    (∀ a a' : Tensor, a.Encodable → a'.Encodable →
      (∃ bytes, a.bytes? = .ok bytes)
      ∧ (a.bytes? = a'.bytes? ↔ a.shape = a'.shape ∧ Congruent a.entries a'.entries)
      ∧ ((∀ v ∈ a.entries, v < 4294967296) → (∀ v ∈ a'.entries, v < 4294967296) →
          a.bytes? = a'.bytes? → a.shape = a'.shape ∧ a.entries = a'.entries))
    ∧ (∀ g g' : Grid, g.tensor.bytes? = g'.tensor.bytes? ↔ g = g')
    ∧ (∀ a : Tensor, a.kind ≠ .other → (∀ v ∈ a.entries, 0 ≤ v) →
        ((∃ bytes, a.bytes? = .ok bytes) ↔ Frame.InRange a.shape))
    ∧ ∀ a : Tensor, a.kind ≠ .other → (∀ v ∈ a.entries, a.kind.Holds v) →
        (∃ v ∈ a.entries, v < 0) → a.bytes? = .error .negativeEntry := by
  refine ⟨?_, ?_, ?_, ?_⟩
  · intro a a' ha ha'
    refine ⟨⟨_, ha.bytes?_eq⟩, ha.bytes?_eq_iff ha', ?_⟩
    intro hsmall hsmall' hsame
    obtain ⟨hshape, hcongruent⟩ := (ha.bytes?_eq_iff ha').mp hsame
    have hentries : a.entries = a'.entries :=
      eq_of_congruent hcongruent (fun v hv => ⟨ha.entries v hv, hsmall v hv⟩)
        (fun v hv => ⟨ha'.entries v hv, hsmall' v hv⟩)
    exact ⟨hshape, hentries⟩
  · intro g g'
    constructor
    · intro hsame
      have hbytes := g.encodable_tensor.bytes?_eq
      exact Grid.bytes?_inj hbytes (hsame.symm.trans hbytes)
    · rintro rfl
      rfl
  · intro a hkind hentries
    exact exists_bytes?_iff hkind hentries
  · intro a hkind hholds hnegative
    exact bytes?_eq_negativeEntry hkind hholds hnegative

/-- Truth values and wide integers with the same words, the same truth values in another shape,
two arrays without entries, and a negative number without any axis. -/
theorem array_bytes_exact_words :
    (∃ bytes, (⟨.boolean, [2, 3], [0, 1, 0, 1, 1, 0]⟩ : Tensor).bytes? = .ok bytes)
      ∧ (⟨.boolean, [2, 3], [0, 1, 0, 1, 1, 0]⟩ : Tensor).bytes?
        = (⟨.signed, [2, 3], [0x100000000, 1, 0, 1, 0x300000001, 0]⟩ : Tensor).bytes?
      ∧ (⟨.boolean, [2, 3], [0, 1, 0, 1, 1, 0]⟩ : Tensor).bytes?
        ≠ (⟨.boolean, [3, 2], [0, 1, 0, 1, 1, 0]⟩ : Tensor).bytes?
      ∧ (⟨.boolean, [0, 5], []⟩ : Tensor).bytes? ≠ (⟨.unsigned, [5, 0], []⟩ : Tensor).bytes?
      ∧ (⟨.signed, [], [-1]⟩ : Tensor).bytes? = .error .negativeEntry := by
  have hpair (m n : Nat) (hm : m < 6) (hn : n < 6) : Frame.InRange [m, n] :=
    Frame.inRange_pair (Nat.lt_trans hm (by decide)) (Nat.lt_trans hn (by decide))
  have hbits : Encodable ⟨.boolean, [2, 3], [0, 1, 0, 1, 1, 0]⟩ :=
    ⟨nofun, by decide, hpair 2 3 (by decide) (by decide)⟩
  have hbits' : Encodable ⟨.boolean, [3, 2], [0, 1, 0, 1, 1, 0]⟩ :=
    ⟨nofun, by decide, hpair 3 2 (by decide) (by decide)⟩
  have hwide : Encodable ⟨.signed, [2, 3], [0x100000000, 1, 0, 1, 0x300000001, 0]⟩ :=
    ⟨nofun, by decide, hpair 2 3 (by decide) (by decide)⟩
  have hempty : Encodable ⟨.boolean, [0, 5], []⟩ :=
    ⟨nofun, nofun, hpair 0 5 (by decide) (by decide)⟩
  have hempty' : Encodable ⟨.unsigned, [5, 0], []⟩ :=
    ⟨nofun, nofun, hpair 5 0 (by decide) (by decide)⟩
  obtain ⟨hexact, -, -, hrefused⟩ := array_bytes_exact
  obtain ⟨hbytes, hsame, -⟩ := hexact _ _ hbits hwide
  refine ⟨hbytes, hsame.mpr ⟨rfl, ?_⟩, ?_, ?_, hrefused _ nofun ?_ ?_⟩
  · exact flatMap_wordBytes_eq_iff.mp rfl
  · rw [ne_eq, (hexact _ _ hbits hbits').2.1]
    rintro ⟨hshape, -⟩
    cases hshape
  · rw [ne_eq, (hexact _ _ hempty hempty').2.1]
    rintro ⟨hshape, -⟩
    cases hshape
  · exact fun _ _ => trivial
  · exact ⟨-1, List.mem_singleton_self _, by decide⟩

end Tensor

end SegmentFit
