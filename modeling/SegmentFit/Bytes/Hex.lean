/-!
# Hexadecimal text — lower-case digits, the high ones first
-/

namespace SegmentFit.Hex

/-- The digit that stands for a value below sixteen. -/
def digit (v : Nat) : Char :=
  if v < 10 then Char.ofNat (48 + v) else Char.ofNat (87 + v)

def value? (c : Char) : Option Nat :=
  if '0' ≤ c ∧ c ≤ '9' then some (c.toNat - 48)
  else if 'a' ≤ c ∧ c ≤ 'f' then some (c.toNat - 87)
  else if 'A' ≤ c ∧ c ≤ 'F' then some (c.toNat - 55)
  else none

/-- The lowest `width` digits of a number. -/
def padded : Nat → Nat → List Char
  | 0, _ => []
  | width + 1, n => padded width (n / 16) ++ [digit (n % 16)]

def encode (bytes : List UInt8) : String :=
  String.ofList (bytes.flatMap fun b => padded 2 b.toNat)

end SegmentFit.Hex
