import SegmentFit.Bytes.Blake3
import SegmentFit.Bytes.Frame

/-!
# Cell bytes — the encoding of an array that a hash is taken of

An array of any number of axes is written as the frame of its shape followed by its
entries in row-major order, each as the four low bytes of its value, lowest first.
The kind of the entries leaves no trace, so a table of truth values and the table of
the matching zeros and ones have the same bytes.

Only truth values and integers have cell bytes, and negative entries are refused
instead of being wrapped.
-/

namespace SegmentFit

inductive EntryKind where
  | boolean
  | signed
  | unsigned
  -- anything that is neither a truth value nor an integer
  | other
  deriving DecidableEq, Repr

/-- An array of any number of axes, its entries in row-major order. -/
structure Tensor where
  kind : EntryKind
  shape : List Nat
  entries : List Int
  deriving DecidableEq, Repr

/-- Why an array has no cell bytes. -/
inductive EncodingFault where
  | entryKind
  | negativeEntry
  | shape (fault : VarintFault)
  deriving DecidableEq, Repr

def EncodingFault.message : EncodingFault → String
  | .entryKind => "Grid must be bool or integer dtype"
  | .negativeEntry => "Grid must not contain negative values"
  | .shape fault => fault.message

instance : Fault EncodingFault where
  kind
    | .entryKind => .type
    | .negativeEntry => .value
    | .shape fault => Fault.kind fault
  numbers
    | .entryKind | .negativeEntry => []
    | .shape fault => Fault.numbers fault
  message := EncodingFault.message

namespace Tensor

/-- The four low bytes of a value, lowest first. -/
def wordBytes (value : Int) : List UInt8 :=
  let low := (value % 4294967296).toNat
  [low.toUInt8, (low / 256).toUInt8, (low / 65536).toUInt8, (low / 16777216).toUInt8]

/-- The cell bytes of an array. -/
def bytes? (array : Tensor) : Except EncodingFault (List UInt8) :=
  if array.kind = .other then .error .entryKind
  else if array.kind = .signed ∧ array.entries.any (· < 0) then .error .negativeEntry
  else
    match Frame.encode? (array.shape.map Int.ofNat) with
    | .error fault => .error (.shape fault)
    | .ok shape => .ok (shape ++ array.entries.flatMap wordBytes)

def digest? (array : Tensor) : Except EncodingFault String :=
  array.bytes?.map Blake3.hexDigest

end Tensor

end SegmentFit
