import SegmentFit.Fault

/-!
# Varints — natural numbers in base 128

A number is written as its base-128 digits, the lowest first, one byte each; every
byte but the last carries the high bit. Reading takes the bytes up to and including
the first one below 128 and leaves the rest.

The reader accepts any number of bytes, and digits that are zero at the high end.
The writer used for receipts (`encode?`) refuses numbers from `2 ^ 63` on.
-/

namespace SegmentFit

/-- Why a number has no varint, or a byte string does not start with one. -/
inductive VarintFault where
  | negative
  | tooLarge (value : Int)
  -- the bytes end before one below 128
  | incomplete
  deriving DecidableEq, Repr

def VarintFault.message : VarintFault → String
  | .negative => "varu expects unsigned (n >= 0)"
  | .tooLarge value => s!"Integer {value} too large for safe LEB128 encoding"
  | .incomplete => "Incomplete LEB128 varint"

instance : Fault VarintFault where
  kind
    | .tooLarge _ => .overflow
    | .negative | .incomplete => .value
  numbers
    | .tooLarge value => [value]
    | .negative | .incomplete => []
  message := VarintFault.message

namespace Varint

/-- The first number that is refused, `2 ^ 63`. -/
def limit : Nat := 0x8000000000000000

def encode (n : Nat) : List UInt8 :=
  if n < 128 then [n.toUInt8]
  else (n % 128 + 128).toUInt8 :: encode (n / 128)
termination_by n
decreasing_by omega

/-- The bytes of an integer in `[0, 2 ^ 63)`. -/
def encode? (n : Int) : Except VarintFault (List UInt8) :=
  if n < 0 then .error .negative
  else if (limit : Int) ≤ n then .error (.tooLarge n)
  else .ok (encode n.toNat)

/-- The number a byte string starts with, and the bytes after it. -/
def decode : List UInt8 → Except VarintFault (Nat × List UInt8)
  | [] => .error .incomplete
  | b :: rest =>
    if b < 128 then .ok (b.toNat, rest)
    else (decode rest).map fun (high, left) => (b.toNat % 128 + 128 * high, left)

end Varint

end SegmentFit
