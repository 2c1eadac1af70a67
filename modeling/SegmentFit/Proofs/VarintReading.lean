import Mathlib.Data.Nat.Digits.Lemmas
import SegmentFit.Proofs.Frames

/-!
# Varint reading — what any byte string is read as

A reader of varints stops at the first byte below 128. If there is none, it has no number
(`decode_eq_error_iff`); otherwise the bytes up to there give the number of their low seven
bits, lowest first, and the ones after them are left (`Cut.decode_eq`).

Several byte strings are read as the same number, since zero digits may be added at its high
end. What the writer makes of a number has no more bytes than any of them
(`length_encode_le_iff`), and is the one among them that does not end in a zero byte, unless it
is a single byte (`Cut.encode_value_eq_iff`).
-/

namespace SegmentFit.Varint

/-! ## Numbers of bytes -/

/-- The number of the low seven bits of bytes, to base 128 and lowest first. -/
def value (bytes : List UInt8) : Nat :=
  Nat.ofDigits 128 (bytes.map fun b => b.toNat % 128)

variable {lead rest bytes : List UInt8} {last b : UInt8}

/-- The first byte has the lowest seven bits of the value. -/
theorem value_cons (b : UInt8) (bytes : List UInt8) :
    value (b :: bytes) = b.toNat % 128 + 128 * value bytes :=
  Nat.ofDigits_cons

/-- Bytes behind others count for higher digits. -/
theorem value_append (bytes bytes' : List UInt8) :
    value (bytes ++ bytes') = value bytes + 128 ^ bytes.length * value bytes' := by
  rw [value, value, value, List.map_append, Nat.ofDigits_append, List.length_map]

theorem value_singleton (h : last < 128) : value [last] = last.toNat := by
  have hsmall : last.toNat < 128 := UInt8.lt_iff_toNat_lt.mp h
  rw [value_cons, Nat.mod_eq_of_lt hsmall]
  rfl

/-- The value of bytes is less than seven bits for each of them allow. -/
theorem value_lt (bytes : List UInt8) : value bytes < 128 ^ bytes.length := by
  have hlt := Nat.ofDigits_lt_base_pow_length (b := 128) (l := bytes.map fun b => b.toNat % 128)
    (by decide) fun d hd => by
      obtain ⟨b, -, rfl⟩ := List.mem_map.mp hd
      exact Nat.mod_lt _ (by decide)
  rwa [List.length_map] at hlt

/-- A last digit that is not zero makes the number one. -/
theorem value_pos (lead : List UInt8) (hlast : last < 128) (hzero : last ≠ 0) :
    0 < value (lead ++ [last]) := by
  have hdigit : 0 < last.toNat := Nat.pos_of_ne_zero fun h => hzero (UInt8.toNat_inj.mp h)
  rw [value_append, value_singleton hlast]
  exact Nat.add_pos_right _ (Nat.mul_pos (Nat.pow_pos (by decide)) hdigit)

/-! ## Reading -/

/-- A byte string is cut behind its first byte below 128. -/
structure Cut (bytes lead : List UInt8) (last : UInt8) (rest : List UInt8) : Prop where
  whole : bytes = lead ++ last :: rest
  more : ∀ b ∈ lead, ¬ b < 128
  ends : last < 128

/-- A byte that is not the last one is cut off with those before the end. -/
theorem Cut.cons (hb : ¬ b < 128) (h : Cut bytes lead last rest) :
    Cut (b :: bytes) (b :: lead) last rest :=
  ⟨congrArg (b :: ·) h.whole, List.forall_mem_cons.mpr ⟨hb, h.more⟩, h.ends⟩

/-- Bytes are cut behind the first one below 128, if there is one. -/
theorem exists_cut (h : ∃ b ∈ bytes, b < 128) : ∃ lead last rest, Cut bytes lead last rest := by
  induction bytes with
  | nil => exact absurd h (by simp)
  | cons b tail ih =>
      by_cases hb : b < 128
      · exact ⟨[], b, tail, rfl, by simp, hb⟩
      · have htail : ∃ c ∈ tail, c < 128 := by simpa [hb] using h
        obtain ⟨lead, last, rest, hcut⟩ := ih htail
        exact ⟨b :: lead, last, rest, hcut.cons hb⟩

/-- Bytes without an end are incomplete. -/
theorem decode_of_no_end (h : ∀ b ∈ bytes, ¬ b < 128) : decode bytes = .error .incomplete := by
  induction bytes with
  | nil => rfl
  | cons b tail ih =>
      obtain ⟨hb, htail⟩ := List.forall_mem_cons.mp h
      rw [decode, if_neg hb, ih htail]
      rfl

/-- **A varint is read up to its last byte**, as the number of the bytes so far. -/
theorem Cut.decode_eq (h : Cut bytes lead last rest) :
    decode bytes = .ok (value (lead ++ [last]), rest) := by
  obtain ⟨rfl, hmore, hends⟩ := h
  induction lead with
  | nil => rw [List.nil_append, List.nil_append, decode, if_pos hends, value_singleton hends]
  | cons b lead ih =>
      obtain ⟨hb, hlead⟩ := List.forall_mem_cons.mp hmore
      rw [List.cons_append, decode, if_neg hb, ih hlead, List.cons_append, value_cons]
      rfl

/-- **Bytes are refused** exactly if there is no end in them. -/
theorem decode_eq_error_iff (bytes : List UInt8) :
    decode bytes = .error .incomplete ↔ ∀ b ∈ bytes, ¬ b < 128 := by
  constructor
  · intro h b hb hend
    obtain ⟨lead, last, rest, hcut⟩ := exists_cut ⟨b, hb, hend⟩
    rw [hcut.decode_eq] at h
    cases h
  · exact decode_of_no_end

/-! ## The shortest bytes -/

theorem length_encode_pos (n : Nat) : 0 < (encode n).length := by
  rw [encode]
  split <;> exact Nat.succ_pos _

/-- The writer takes no more bytes than the number has digits. -/
theorem length_encode_le_iff (n k : Nat) : (encode n).length ≤ k + 1 ↔ n < 128 ^ (k + 1) := by
  fun_induction encode n generalizing k with
  | case1 n hsmall =>
      have hpow : 128 ≤ 128 ^ (k + 1) := Nat.le_self_pow (Nat.succ_ne_zero k) 128
      exact iff_of_true (Nat.le_add_left 1 k) (Nat.lt_of_lt_of_le hsmall hpow)
  | case2 n hlarge ih =>
      rw [List.length_cons, Nat.add_le_add_iff_right]
      cases k with
      | zero =>
          have hmore := length_encode_pos (n / 128)
          exact iff_of_false (Nat.not_le.mpr hmore) hlarge
      | succ k => rw [ih, Nat.pow_succ 128 (k + 1), Nat.div_lt_iff_lt_mul (by decide)]

/-- A byte from 128 on is the lowest digit of a number with further ones. -/
theorem encode_digit {n : Nat} (hb : ¬ b < 128) (hn : 0 < n) :
    encode (b.toNat % 128 + 128 * n) = b :: encode n := by
  have hlow : ¬ b.toNat < 128 := fun h => hb (UInt8.lt_iff_toNat_lt.mpr h)
  have hhigh : b.toNat < 256 := b.toNat_lt
  have hdigit : (b.toNat % 128 + 128 * n) % 128 + 128 = b.toNat := by omega
  have hrest : (b.toNat % 128 + 128 * n) / 128 = n := by omega
  rw [encode, if_neg (by omega), hdigit, hrest]
  exact congrArg (· :: encode n) UInt8.ofNat_toNat

/-- Bytes are written for their value, if the last one is not an idle zero. -/
theorem encode_value (hmore : ∀ b ∈ lead, ¬ b < 128) (hends : last < 128)
    (hshort : lead = [] ∨ last ≠ 0) : encode (value (lead ++ [last])) = lead ++ [last] := by
  induction lead with
  | nil =>
      have hsmall : last.toNat < 128 := UInt8.lt_iff_toNat_lt.mp hends
      rw [List.nil_append, value_singleton hends, encode, if_pos hsmall]
      exact congrArg (fun b : UInt8 => [b]) UInt8.ofNat_toNat
  | cons b lead ih =>
      obtain ⟨hb, hlead⟩ := List.forall_mem_cons.mp hmore
      have hlast : last ≠ 0 := hshort.resolve_left (List.cons_ne_nil b lead)
      rw [List.cons_append, value_cons, encode_digit hb (value_pos lead hends hlast),
        ih hlead (Or.inr hlast)]

/-- The writer gives back the bytes of a number iff no digit was added to it. -/
theorem Cut.encode_value_eq_iff (h : Cut bytes lead last rest) :
    encode (value (lead ++ [last])) = lead ++ [last] ↔ lead = [] ∨ last ≠ 0 := by
  constructor
  · intro hown
    by_contra hpadded
    rw [not_or, not_not] at hpadded
    obtain ⟨hlead, rfl⟩ := hpadded
    obtain ⟨k, hk⟩ := Nat.exists_eq_succ_of_ne_zero (List.length_pos_iff.mpr hlead).ne'
    -- without the zero digit there is a byte less
    have hfewer : value (lead ++ [0]) < 128 ^ (k + 1) := by
      have hlt := value_lt lead
      rw [hk] at hlt
      rw [value_append, value_singleton h.ends]
      exact hlt
    have hlength := (length_encode_le_iff _ k).mpr hfewer
    rw [hown, List.length_append, List.length_singleton, hk] at hlength
    omega
  · exact encode_value h.more h.ends

/-- No bytes with the value are fewer than those that are written for it. -/
theorem length_encode_value_le (lead : List UInt8) (last : UInt8) :
    (encode (value (lead ++ [last]))).length ≤ (lead ++ [last]).length := by
  have hlt := value_lt (lead ++ [last])
  rw [List.length_append, List.length_singleton] at hlt ⊢
  exact (length_encode_le_iff _ _).mpr hlt

/-- **Varints**. What is written of a number below the limit is read back, and what follows is
left. Any byte string without a byte below 128 is refused. Any other one is cut behind the first
such byte: the bytes up to there are read as the number of their low seven bits, and the rest is
left. If the number is below the limit, what the writer makes of it is no longer than the bytes
that were read, and the same iff they are a single byte or do not end in a zero byte. -/
theorem varint_reading :
    (∀ (n : Nat) (rest : List UInt8), n < limit →
      ∃ bytes, encode? n = .ok bytes ∧ decode (bytes ++ rest) = .ok (n, rest))
    ∧ ∀ bytes : List UInt8,
      (decode bytes = .error .incomplete ↔ ∀ b ∈ bytes, ¬ b < 128)
      ∧ ((∃ b ∈ bytes, b < 128) → ∃ lead last rest, Cut bytes lead last rest)
      ∧ ∀ (lead : List UInt8) (last : UInt8) (rest : List UInt8), Cut bytes lead last rest →
        decode bytes = .ok (value (lead ++ [last]), rest)
        ∧ (value (lead ++ [last]) < limit → ∃ own, encode? (value (lead ++ [last])) = .ok own
            ∧ own.length ≤ (lead ++ [last]).length
            ∧ (own = lead ++ [last] ↔ lead = [] ∨ last ≠ 0)) := by
  constructor
  · intro n rest hn
    exact ⟨encode n, encode?_natCast hn, decode_encode n rest⟩
  · intro bytes
    refine ⟨decode_eq_error_iff bytes, exists_cut, ?_⟩
    intro lead last rest hcut
    refine ⟨hcut.decode_eq, ?_⟩
    intro hlimit
    exact ⟨_, encode?_natCast hlimit, length_encode_value_le lead last, hcut.encode_value_eq_iff⟩

/-- The number 300 with a zero digit added, and a byte string that ends too early. -/
theorem varint_reading_padded :
    300 < limit
      ∧ (∃ b ∈ [0xac, 0x82, 0x00, (0xff : UInt8)], b < 128)
      ∧ (∃ bytes, encode? (300 : Nat) = .ok bytes ∧ decode (bytes ++ [0xff]) = .ok (300, [0xff]))
      ∧ decode [0xac, 0x82, 0x00, 0xff] = .ok (300, [0xff])
      ∧ (∃ own, encode? (300 : Nat) = .ok own ∧ own.length ≤ 3 ∧ own ≠ [0xac, 0x82, 0x00])
      ∧ decode [0xac, 0x82] = .error .incomplete := by
  have hlimit : 300 < limit := by decide
  have hmore : ∀ b ∈ [0xac, (0x82 : UInt8)], ¬ b < 128 := by
    intro b hb
    rcases List.mem_pair.mp hb with rfl | rfl <;> decide
  have hcut : Cut [0xac, 0x82, 0x00, 0xff] [0xac, 0x82] 0x00 [0xff] := ⟨rfl, hmore, by decide⟩
  obtain ⟨hwritten, hread⟩ := varint_reading
  obtain ⟨-, -, hcuts⟩ := hread [0xac, 0x82, 0x00, 0xff]
  obtain ⟨hdecode, hown⟩ := hcuts _ _ _ hcut
  obtain ⟨own, hencode, hlength, hsame⟩ := hown hlimit
  refine ⟨hlimit, ⟨0x00, by decide, by decide⟩, hwritten 300 [0xff] hlimit, hdecode,
    ⟨own, hencode, hlength, fun heq => ?_⟩, (hread [0xac, 0x82]).1.mpr hmore⟩
  exact absurd (hsame.mp heq) (by decide)

end SegmentFit.Varint
