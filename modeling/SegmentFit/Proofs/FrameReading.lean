import SegmentFit.Proofs.VarintReading

/-!
# Frame reading — which byte strings are frames

A list of integers is framed if it is in range, and refused otherwise for the first integer that
has no varint (`Frame.encode?_eq_error`). A frame is read back whatever follows it, so it is no
initial part of another one.

Each number that is read, of any length, uses up one byte below 128 and no more
(`Varint.countP_of_decode`). So it depends on the number of those bytes alone whether there are
as many numbers behind a count as it says (`Frame.exists_decodeValues_iff`).
-/

namespace SegmentFit

/-! ## Refused integers -/

namespace Varint

/-- An integer has no varint. -/
def refused (v : Int) : Bool :=
  v < 0 || (limit : Int) ≤ v

/-- The numbers that are refused are the negative ones and those from the limit on. -/
theorem refused_iff (v : Int) : refused v = true ↔ v < 0 ∨ (limit : Int) ≤ v := by
  rw [refused, Bool.or_eq_true, decide_eq_true_eq, decide_eq_true_eq]

/-- A number that is refused is refused for its sign or its size. -/
theorem encode?_of_refused {v : Int} (h : refused v = true) :
    encode? v = .error (if v < 0 then .negative else .tooLarge v) := by
  rw [refused_iff] at h
  rw [encode?]
  by_cases hneg : v < 0
  · rw [if_pos hneg, if_pos hneg]
  · rw [if_neg hneg, if_neg hneg, if_pos (h.resolve_left hneg)]

/-- Any other number has bytes. -/
theorem exists_encode? {v : Int} (h : ¬ refused v = true) : ∃ bytes, encode? v = .ok bytes := by
  rw [refused_iff] at h
  obtain ⟨n, rfl⟩ : ∃ n : Nat, v = n := ⟨v.toNat, by omega⟩
  exact ⟨_, encode?_natCast (by omega)⟩

end Varint

/-- A number without a varint is seen as an overflow, unless it is negative or too long to be
written. -/
theorem DigitLimit.kind_raised_refused (digits : DigitLimit) (v : Int) :
    (digits.raised (if v < 0 then VarintFault.negative else .tooLarge v)).kind
      = if 0 ≤ v ∧ digits.allows v then .overflow else .value := by
  by_cases hneg : v < 0
  · rw [if_pos hneg, if_neg fun h => absurd h.1 (Int.not_le.mpr hneg)]
    exact digits.kind_raised_of_value rfl
  · have hnonneg : 0 ≤ v := Int.not_lt.mp hneg
    rw [if_neg hneg, raised_tooLarge]
    by_cases hallows : digits.allows v = true
    · rw [if_pos hallows, if_pos ⟨hnonneg, hallows⟩]
    · rw [if_neg hallows, if_neg fun h => hallows h.2]
      rfl

namespace Frame

open Varint (limit refused)

variable {values : List Int} {v : Int}

/-- The numbers of a frame are refused for the first one that has no varint. -/
theorem encodeValues?_eq_error (h : values.find? refused = some v) :
    encodeValues? values = .error (if v < 0 then .negative else .tooLarge v) := by
  induction values with
  | nil => cases h
  | cons u rest ih =>
      rw [encodeValues?]
      by_cases hu : refused u = true
      · rw [List.find?_cons_of_pos hu] at h
        cases h
        rw [Varint.encode?_of_refused hu]
        rfl
      · rw [List.find?_cons_of_neg hu] at h
        obtain ⟨here, hhere⟩ := Varint.exists_encode? hu
        rw [hhere, ih h]
        rfl

/-- A list is refused for the first of its integers that has no varint. -/
theorem encode?_eq_error (hlength : values.length < limit) (h : values.find? refused = some v) :
    encode? values = .error (if v < 0 then .negative else .tooLarge v) := by
  rw [encode?, Varint.encode?_natCast hlength, encodeValues?_eq_error h]
  rfl

/-- A list that is too long is refused for its length. -/
theorem encode?_of_limit_le_length (hlength : limit ≤ values.length) :
    encode? values = .error (.tooLarge values.length) := by
  have hrefused : refused values.length = true := (Varint.refused_iff _).mpr (by omega)
  rw [encode?, Varint.encode?_of_refused hrefused, if_neg (by omega)]
  rfl

end Frame

/-! ## Numbers that are read -/

namespace Varint

variable {bytes rest : List UInt8} {v : Nat}

/-- A number uses up one byte below 128. -/
theorem countP_of_decode (h : decode bytes = .ok (v, rest)) :
    bytes.countP (· < 128) = rest.countP (· < 128) + 1 := by
  by_cases hend : ∃ b ∈ bytes, b < 128
  · obtain ⟨lead, last, left, hcut⟩ := exists_cut hend
    rw [hcut.decode_eq] at h
    obtain ⟨-, rfl⟩ := Prod.mk.inj (Except.ok.inj h)
    have hlead : lead.countP (· < 128) = 0 := by
      refine List.countP_eq_zero.mpr fun b hb => ?_
      simpa using hcut.more b hb
    rw [hcut.whole, List.countP_append, hlead, Nat.zero_add]
    exact List.countP_cons_of_pos (decide_eq_true hcut.ends)
  · rw [decode_of_no_end fun b hb hlt => hend ⟨b, hb, hlt⟩] at h
    cases h

/-- Bytes that start with no number have no end in them. -/
theorem countP_of_decode_eq_error {fault : VarintFault} (h : decode bytes = .error fault) :
    bytes.countP (· < 128) = 0 := by
  refine List.countP_eq_zero.mpr fun b hb hend => ?_
  obtain ⟨lead, last, rest, hcut⟩ := exists_cut ⟨b, hb, of_decide_eq_true hend⟩
  rw [hcut.decode_eq] at h
  cases h

end Varint

namespace Frame

open Varint (limit refused)

variable {bytes rest : List UInt8} {values : List Nat} {count : Nat}

/-- **As many numbers can be read as there are bytes below 128.** -/
theorem exists_decodeValues_iff (count : Nat) (bytes : List UInt8) :
    (∃ read, decodeValues count bytes = .ok read) ↔ count ≤ bytes.countP (· < 128) := by
  induction count generalizing bytes with
  | zero => exact iff_of_true ⟨_, rfl⟩ (Nat.zero_le _)
  | succ count ih =>
      rw [decodeValues]
      cases hfirst : Varint.decode bytes with
      | error fault =>
          rw [Varint.countP_of_decode_eq_error hfirst]
          refine iff_of_false ?_ (Nat.not_succ_le_zero count)
          rintro ⟨read, hread⟩
          cases hread
      | ok first =>
          obtain ⟨v, rest⟩ := first
          rw [Varint.countP_of_decode hfirst, Nat.add_le_add_iff_right, ← ih]
          show (∃ read, (decodeValues count rest >>= fun more => pure (v :: more.1, more.2))
            = .ok read) ↔ _
          simp only [bind_eq_ok_iff]
          constructor
          · rintro ⟨_, more, hmore, -⟩
            exact ⟨more, hmore⟩
          · rintro ⟨more, hmore⟩
            exact ⟨_, more, hmore, rfl⟩

/-- As many numbers are read as were asked for. -/
theorem length_of_decodeValues (h : decodeValues count bytes = .ok (values, rest)) :
    values.length = count := by
  induction count generalizing bytes values with
  | zero =>
      cases h
      rfl
  | succ count ih =>
      rw [decodeValues] at h
      obtain ⟨first, -, h⟩ := bind_eq_ok_iff.mp h
      obtain ⟨more, hmore, h⟩ := bind_eq_ok_iff.mp h
      cases h
      rw [List.length_cons, ih hmore]

/-- Behind the count, a frame is read number by number. -/
theorem decode_of_count (hcount : Varint.decode bytes = .ok (count, rest)) :
    decode bytes = (decodeValues count rest).map Prod.fst := by
  rw [decode, hcount]
  show (decodeValues count rest >>= fun read => pure read.1) = _
  cases decodeValues count rest <;> rfl

/-- **What is read as a frame** has a count that can be read, and as many numbers behind it as the
count says. -/
theorem exists_decode_iff (bytes : List UInt8) :
    (∃ values, decode bytes = .ok values) ↔ ∃ count rest,
      Varint.decode bytes = .ok (count, rest) ∧ count + 1 ≤ bytes.countP (· < 128) := by
  constructor
  · rintro ⟨values, h⟩
    obtain ⟨⟨count, rest⟩, hcount, -⟩ := bind_eq_ok_iff.mp h
    rw [decode_of_count hcount, map_eq_ok_iff] at h
    obtain ⟨read, hread, -⟩ := h
    have henough := (exists_decodeValues_iff count rest).mp ⟨read, hread⟩
    refine ⟨count, rest, hcount, ?_⟩
    rw [Varint.countP_of_decode hcount]
    exact Nat.add_le_add_right henough 1
  · rintro ⟨count, rest, hcount, henough⟩
    rw [Varint.countP_of_decode hcount, Nat.add_le_add_iff_right] at henough
    obtain ⟨read, hread⟩ := (exists_decodeValues_iff count rest).mpr henough
    refine ⟨read.1, ?_⟩
    rw [decode_of_count hcount, hread]
    rfl

/-- A frame has as many numbers as its count says. -/
theorem length_of_decode (h : decode bytes = .ok values)
    (hcount : Varint.decode bytes = .ok (count, rest)) : values.length = count := by
  rw [decode_of_count hcount, map_eq_ok_iff] at h
  obtain ⟨read, hread, rfl⟩ := h
  exact length_of_decodeValues hread

/-! ## What is written -/

/-- **A frame is read back**, whatever follows it. -/
theorem decode_encode (values : List Nat) (rest : List UInt8) :
    decode (encode values ++ rest) = .ok values := by
  have hcount : Varint.decode (encode values ++ rest)
      = .ok (values.length, values.flatMap Varint.encode ++ rest) := by
    rw [encode, List.append_assoc, Varint.decode_encode]
  rw [decode_of_count hcount, decodeValues_encode]
  rfl

/-- No frame is an initial part of another one. -/
theorem eq_of_prefix {values values' : List Int} {bytes bytes' : List UInt8}
    (h : encode? values = .ok bytes) (h' : encode? values' = .ok bytes')
    (hinitial : bytes <+: bytes') : values = values' ∧ bytes = bytes' := by
  obtain ⟨rest, rfl⟩ := hinitial
  obtain ⟨numbers, -, rfl, rfl⟩ := encode?_eq_ok_iff.mp h
  obtain ⟨numbers', -, rfl, hbytes⟩ := encode?_eq_ok_iff.mp h'
  have hsame : encode numbers ++ rest = encode numbers' ++ [] := by rw [hbytes, List.append_nil]
  obtain ⟨rfl, rfl⟩ := encode_append_inj hsame
  exact ⟨rfl, (List.append_nil _).symm⟩

/-- **Frames**. What is written of a list in range is read back, whatever follows, and is no
initial part of what is written of another list. Any other list is refused for the first integer
that is negative or not below the limit, unless it is too long itself. That is seen as a value
error or as an overflow, if the integer can be written. A byte string is read iff it starts with
a count and has one byte below 128 more than the count says, and then there are as many numbers
as the count says. -/
theorem frame_reading (values : List Int) (rest bytes : List UInt8) :
    (∀ numbers : List Nat, InRange numbers → values = numbers.map Int.ofNat →
      ∃ framed, encode? values = .ok framed ∧ decode (framed ++ rest) = .ok numbers)
    ∧ (∀ (others : List Int) (framed framed' : List UInt8), encode? values = .ok framed →
        encode? others = .ok framed' → framed <+: framed' → values = others ∧ framed = framed')
    ∧ (values.length < limit → (∃ v ∈ values, refused v = true) →
        ∃ v fault, values.find? refused = some v ∧ encode? values = .error fault
          ∧ fault = (if v < 0 then .negative else .tooLarge v)
          ∧ ∀ digits : DigitLimit, (digits.raised fault).kind
              = if 0 ≤ v ∧ digits.allows v then .overflow else .value)
    ∧ (limit ≤ values.length → encode? values = .error (.tooLarge values.length))
    ∧ ((∃ numbers, decode bytes = .ok numbers) ↔ ∃ count left,
        Varint.decode bytes = .ok (count, left) ∧ count + 1 ≤ bytes.countP (· < 128))
    ∧ ∀ numbers count left, decode bytes = .ok numbers →
        Varint.decode bytes = .ok (count, left) → numbers.length = count := by
  refine ⟨?_, ?_, ?_, encode?_of_limit_le_length, exists_decode_iff bytes, ?_⟩
  · rintro numbers hrange rfl
    exact ⟨_, encode?_map hrange, decode_encode numbers rest⟩
  · intro others framed framed' h h' hinitial
    exact eq_of_prefix h h' hinitial
  · intro hlength hany
    obtain ⟨v, hv⟩ := Option.isSome_iff_exists.mp (List.find?_isSome.mpr hany)
    exact ⟨v, _, hv, encode?_eq_error hlength hv, rfl, fun digits => digits.kind_raised_refused v⟩
  · intro numbers count left h hcount
    exact length_of_decode h hcount

/-- The greatest number that has a varint, a list with two integers that have none, a count that
is padded with a zero digit, and one with too few numbers behind it. -/
theorem frame_reading_bounds :
    InRange [3, 0x7FFFFFFFFFFFFFFF]
      ∧ (∃ framed, encode? [3, 0x7FFFFFFFFFFFFFFF] = .ok framed
          ∧ decode (framed ++ [0xff]) = .ok [3, 0x7FFFFFFFFFFFFFFF])
      ∧ [5, 0x8000000000000000, (-1 : Int)].length < limit
      ∧ (∃ v ∈ [5, 0x8000000000000000, (-1 : Int)], refused v = true)
      ∧ encode? [5, 0x8000000000000000, -1] = .error (.tooLarge 0x8000000000000000)
      ∧ (DigitLimit.standard.raised (VarintFault.tooLarge 0x8000000000000000)).kind = .overflow
      ∧ (∃ numbers, decode [0x82, 0x00, 0x81, 0x01, 0x07] = .ok numbers ∧ numbers.length = 2)
      ∧ ¬ ∃ numbers, decode [0x82, 0x00, 0x81, 0x81, 0x07] = .ok numbers := by
  have hrange : InRange [3, 0x7FFFFFFFFFFFFFFF] := ⟨by decide, by decide⟩
  have hlength : [5, 0x8000000000000000, (-1 : Int)].length < limit := by decide
  have hany : ∃ v ∈ [5, 0x8000000000000000, (-1 : Int)], refused v = true := by decide
  obtain ⟨hback, -⟩ := frame_reading [3, 0x7FFFFFFFFFFFFFFF] [0xff] []
  obtain ⟨-, -, hrefused, -, hpadded, hcount⟩ :=
    frame_reading [5, 0x8000000000000000, -1] [] [0x82, 0x00, 0x81, 0x01, 0x07]
  obtain ⟨-, -, -, -, hshort, -⟩ := frame_reading [] [] [0x82, 0x00, 0x81, 0x81, 0x07]
  obtain ⟨v, _, hfind, herror, rfl, hraised⟩ := hrefused hlength hany
  obtain ⟨numbers, hnumbers⟩ := hpadded.mpr ⟨2, [0x81, 0x01, 0x07], rfl, by decide⟩
  cases hfind
  have hallows : DigitLimit.standard.allows 0x8000000000000000 = true :=
    DigitLimit.standard.allows_of_lt (by decide)
  refine ⟨hrange, hback _ hrange rfl, hlength, hany, herror, ?_, ⟨numbers, hnumbers, ?_⟩, ?_⟩
  · exact (hraised .standard).trans (if_pos ⟨by decide, hallows⟩)
  · exact hcount numbers 2 _ hnumbers rfl
  · rw [hshort]
    rintro ⟨count, rest, hfirst, henough⟩
    cases hfirst
    exact absurd henough (by decide)

/-- The least integer with a digit more than can be written is not below the limit, and yet it is
no overflow that is seen, but a value error. -/
theorem frame_unwritable :
    (limit : Int) ≤ 10 ^ 4300
      ∧ encode? [10 ^ 4300, 0] = .error (.tooLarge (10 ^ 4300))
      ∧ (DigitLimit.standard.raised (VarintFault.tooLarge (10 ^ 4300))).kind = .value := by
  have hlarge : (limit : Int) ≤ 10 ^ 4300 := by decide +kernel
  have hlong : DigitLimit.standard.allows (10 ^ 4300) = false := by decide +kernel
  have hrefused : refused (10 ^ 4300) = true := (Varint.refused_iff _).mpr (Or.inr hlarge)
  have hnonneg : (0 : Int) ≤ 10 ^ 4300 := Int.le_trans (by decide) hlarge
  refine ⟨hlarge, ?_, ?_⟩
  · rw [encode?_eq_error (by decide) (List.find?_cons_of_pos hrefused),
      if_neg (Int.not_lt.mpr hnonneg)]
  · rw [DigitLimit.raised_tooLarge, hlong]
    rfl

end Frame

end SegmentFit
