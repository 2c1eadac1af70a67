import SegmentFit.Bytes.Varint

/-!
# Frames — a list of numbers that tells its own length

A frame is the varint of the list's length followed by the varint of each number.
Because the length comes first, no frame is a proper initial part of another, and
whatever follows a frame does not disturb its reading.
-/

namespace SegmentFit.Frame

def encode (values : List Nat) : List UInt8 :=
  Varint.encode values.length ++ values.flatMap Varint.encode

/-- The varints of a list of integers, or the fault of the first one that has none. -/
def encodeValues? : List Int → Except VarintFault (List UInt8)
  | [] => .ok []
  | v :: rest => do
    let here ← Varint.encode? v
    let after ← encodeValues? rest
    return here ++ after

/-- The bytes of a list of integers in `[0, 2 ^ 63)`. -/
def encode? (values : List Int) : Except VarintFault (List UInt8) := do
  let length ← Varint.encode? values.length
  let body ← encodeValues? values
  return length ++ body

/-- The first `count` numbers of a byte string, and the bytes after them. -/
def decodeValues : Nat → List UInt8 → Except VarintFault (List Nat × List UInt8)
  | 0, bytes => .ok ([], bytes)
  | count + 1, bytes => do
    let (value, rest) ← Varint.decode bytes
    let (values, left) ← decodeValues count rest
    return (value :: values, left)

def decode (bytes : List UInt8) : Except VarintFault (List Nat) := do
  let (count, rest) ← Varint.decode bytes
  let (values, _) ← decodeValues count rest
  return values

end SegmentFit.Frame
