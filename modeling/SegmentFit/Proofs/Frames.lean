import SegmentFit.Bytes.Frame
import SegmentFit.Proofs.RaisedFaults
import SegmentFit.Proofs.Results

/-!
# Frames — what is written is read back

A varint is read back whatever follows it (`Varint.decode_encode`), and the numbers of a
frame after their count (`Frame.decodeValues_encode`). So a byte string that starts with a
frame says where the frame ends: two such strings are equal only if the frames and the bytes
after them are (`Frame.encode_append_inj`). A list of integers is written iff it holds natural
numbers in range (`Frame.encode?_eq_ok_iff`), and is known by its bytes
(`Frame.encode?_injective`).
-/

namespace SegmentFit

/-- A number that is too large for a varint is named, unless it is too long to be written. -/
theorem DigitLimit.raised_tooLarge (limit : DigitLimit) (value : Int) :
    limit.raised (VarintFault.tooLarge value)
      = if limit.allows value then ⟨.overflow, (VarintFault.tooLarge value).message⟩
        else limit.refusal :=
  limit.raised_of_numbers List.mem_cons_self fun _ hm hne => absurd (List.mem_singleton.mp hm) hne

namespace Varint

theorem toNat_toUInt8 {n : Nat} (h : n < 256) : n.toUInt8.toNat = n :=
  UInt8.toNat_ofNat_of_lt' h

/-- A varint is read back, and the bytes after it are left. -/
theorem decode_encode (n : Nat) (rest : List UInt8) :
    decode (encode n ++ rest) = .ok (n, rest) := by
  fun_induction encode n with
  | case1 n hsmall =>
      have hbyte : n.toUInt8.toNat = n := toNat_toUInt8 (by omega)
      have hlast : n.toUInt8 < 128 := UInt8.lt_iff_toNat_lt.mpr (by rw [hbyte]; exact hsmall)
      rw [List.singleton_append, decode, if_pos hlast, hbyte]
  | case2 n hlarge ih =>
      have hbyte : (n % 128 + 128).toUInt8.toNat = n % 128 + 128 := toNat_toUInt8 (by omega)
      have hmore : ¬ (n % 128 + 128).toUInt8 < 128 := by
        rw [UInt8.lt_iff_toNat_lt, hbyte]
        exact Nat.not_lt.mpr (Nat.le_add_left _ _)
      -- the byte holds the lowest digit, what is read after it holds the others
      have hdigits : (n % 128 + 128) % 128 + 128 * (n / 128) = n := by omega
      rw [List.cons_append, decode, if_neg hmore, ih, hbyte]
      show Except.ok ((n % 128 + 128) % 128 + 128 * (n / 128), rest) = _
      rw [hdigits]

theorem encode_append_inj {m n : Nat} {rest rest' : List UInt8}
    (h : encode m ++ rest = encode n ++ rest') : m = n ∧ rest = rest' := by
  have hread := decode_encode m rest
  rw [h, decode_encode] at hread
  have hpair := Except.ok.inj hread
  exact ⟨(congrArg Prod.fst hpair).symm, (congrArg Prod.snd hpair).symm⟩

theorem encode?_natCast {n : Nat} (h : n < limit) : encode? n = .ok (encode n) := by
  rw [encode?, if_neg (by omega), if_neg (by omega), Int.toNat_natCast]

/-- An integer is refused if it is negative or not below the limit; any other one is
written. -/
theorem exists_of_encode?_eq_ok {v : Int} {bytes : List UInt8} (h : encode? v = .ok bytes) :
    ∃ n : Nat, v = n ∧ n < limit ∧ bytes = encode n := by
  rw [encode?] at h
  by_cases hneg : v < 0
  · rw [if_pos hneg] at h
    exact nomatch h
  · rw [if_neg hneg] at h
    by_cases hlarge : (limit : Int) ≤ v
    · rw [if_pos hlarge] at h
      exact nomatch h
    · rw [if_neg hlarge] at h
      exact ⟨v.toNat, by omega, by omega, (Except.ok.inj h).symm⟩

end Varint

namespace Frame

/-- The numbers of a frame are read back one after the other. -/
theorem decodeValues_encode (values : List Nat) (rest : List UInt8) :
    decodeValues values.length (values.flatMap Varint.encode ++ rest) = .ok (values, rest) := by
  induction values with
  | nil => rfl
  | cons v values ih =>
      rw [List.flatMap_cons, List.append_assoc, List.length_cons, decodeValues,
        Varint.decode_encode]
      show (decodeValues values.length (values.flatMap Varint.encode ++ rest) >>= _) = _
      rw [ih]
      rfl

/-- No frame is a proper initial part of another one. -/
theorem encode_append_inj {values values' : List Nat} {rest rest' : List UInt8}
    (h : encode values ++ rest = encode values' ++ rest') : values = values' ∧ rest = rest' := by
  rw [encode, encode, List.append_assoc, List.append_assoc] at h
  obtain ⟨hlength, hbody⟩ := Varint.encode_append_inj h
  have hread := decodeValues_encode values rest
  rw [hbody, hlength, decodeValues_encode] at hread
  have hpair := Except.ok.inj hread
  exact ⟨(congrArg Prod.fst hpair).symm, (congrArg Prod.snd hpair).symm⟩

/-! ## Lists of integers -/

/-- No varint of a frame overflows: the length and all numbers are below the limit. -/
def InRange (values : List Nat) : Prop :=
  values.length < Varint.limit ∧ ∀ v ∈ values, v < Varint.limit

theorem inRange_pair {m n : Nat} (hm : m < Varint.limit) (hn : n < Varint.limit) :
    InRange [m, n] := by
  refine ⟨(by decide : 2 < Varint.limit), fun v hv => ?_⟩
  rcases List.mem_cons.mp hv with rfl | hrest
  · exact hm
  · rw [List.mem_singleton.mp hrest]
    exact hn

theorem encodeValues?_map {values : List Nat} (h : ∀ v ∈ values, v < Varint.limit) :
    encodeValues? (values.map Int.ofNat) = .ok (values.flatMap Varint.encode) := by
  induction values with
  | nil => rfl
  | cons v rest ih =>
      have hrest := ih fun u hu => h u (List.mem_cons_of_mem _ hu)
      have hv : Varint.encode? (Int.ofNat v) = .ok (Varint.encode v) :=
        Varint.encode?_natCast (h v List.mem_cons_self)
      rw [List.map_cons, encodeValues?, hv, hrest]
      rfl

/-- A list of numbers in range can be framed. -/
theorem encode?_map {values : List Nat} (h : InRange values) :
    encode? (values.map Int.ofNat) = .ok (encode values) := by
  rw [encode?, List.length_map, Varint.encode?_natCast h.1, encodeValues?_map h.2]
  rfl

theorem exists_of_encodeValues?_eq_ok {values : List Int} {bytes : List UInt8}
    (h : encodeValues? values = .ok bytes) :
    ∃ numbers : List Nat, (∀ n ∈ numbers, n < Varint.limit) ∧ values = numbers.map Int.ofNat
      ∧ bytes = numbers.flatMap Varint.encode := by
  induction values generalizing bytes with
  | nil => exact ⟨[], nofun, rfl, (Except.ok.inj h).symm⟩
  | cons v values ih =>
      rw [encodeValues?] at h
      obtain ⟨here, hhere, h⟩ := bind_eq_ok_iff.mp h
      obtain ⟨after, hafter, h⟩ := bind_eq_ok_iff.mp h
      obtain ⟨n, rfl, hn, rfl⟩ := Varint.exists_of_encode?_eq_ok hhere
      obtain ⟨numbers, hnumbers, rfl, rfl⟩ := ih hafter
      exact ⟨n :: numbers, List.forall_mem_cons.mpr ⟨hn, hnumbers⟩, rfl, (Except.ok.inj h).symm⟩

/-- A list of integers is written iff it holds natural numbers in range, and its bytes are
theirs. -/
theorem encode?_eq_ok_iff {values : List Int} {bytes : List UInt8} :
    encode? values = .ok bytes
      ↔ ∃ numbers, InRange numbers ∧ values = numbers.map Int.ofNat ∧ bytes = encode numbers := by
  constructor
  · intro h
    rw [encode?] at h
    obtain ⟨length, hlength, h⟩ := bind_eq_ok_iff.mp h
    obtain ⟨body, hbody, h⟩ := bind_eq_ok_iff.mp h
    obtain ⟨n, hn, hlimit, rfl⟩ := Varint.exists_of_encode?_eq_ok hlength
    obtain ⟨numbers, hnumbers, rfl, rfl⟩ := exists_of_encodeValues?_eq_ok hbody
    have hcount : n = numbers.length := by
      rw [List.length_map] at hn
      exact (Int.ofNat.inj hn).symm
    refine ⟨numbers, ⟨hcount ▸ hlimit, hnumbers⟩, rfl, ?_⟩
    rw [encode, ← hcount]
    exact (Except.ok.inj h).symm
  · rintro ⟨numbers, hrange, rfl, rfl⟩
    exact encode?_map hrange

/-- A list of integers is known by its bytes. -/
theorem encode?_injective {values values' : List Int} {bytes : List UInt8}
    (h : encode? values = .ok bytes) (h' : encode? values' = .ok bytes) : values = values' := by
  obtain ⟨numbers, -, rfl, rfl⟩ := encode?_eq_ok_iff.mp h
  obtain ⟨numbers', -, rfl, hbytes⟩ := encode?_eq_ok_iff.mp h'
  have hsame : encode numbers ++ [] = encode numbers' ++ [] := by rw [hbytes]
  rw [(encode_append_inj hsame).1]

end Frame

end SegmentFit
