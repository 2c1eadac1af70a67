import SegmentFit.Bytes.Hex

/-!
# UTF-8 — bytes to characters, with the place of the first fault

The reader goes through the bytes once. Between characters it waits for a first byte;
after one it knows how many further bytes the character has and which values the next
one may take, so overlong forms, surrogates and code points above U+10FFFF are refused
at the byte that rules them out.

`decode` reads a whole byte string. `decodeBlocks` reads it block by block, as a
reader of lines does: the bytes of a character that is cut off at the end of a block
are carried into the next, and positions count from there. The first two bytes of a
surrogate are carried like those of any character, and refused after that.
-/

namespace SegmentFit

/-- Why bytes are no text. -/
inductive Utf8Reason where
  | startByte
  | continuationByte
  | endOfData
  deriving DecidableEq, Repr

/-- Faulty bytes: the first of them, its position, and their number. -/
structure Utf8Fault where
  reason : Utf8Reason
  first : UInt8
  position : Nat
  count : Nat
  deriving DecidableEq, Repr

def Utf8Reason.text : Utf8Reason → String
  | .startByte => "invalid start byte"
  | .continuationByte => "invalid continuation byte"
  | .endOfData => "unexpected end of data"

def Utf8Fault.message (fault : Utf8Fault) : String :=
  let reason := fault.reason.text
  if fault.count = 1 then
    let byte := String.ofList (Hex.padded 2 fault.first.toNat)
    s!"'utf-8' codec can't decode byte 0x{byte} in position {fault.position}: {reason}"
  else
    let last := fault.position + fault.count - 1
    s!"'utf-8' codec can't decode bytes in position {fault.position}-{last}: {reason}"

namespace Utf8

/-- A character of which some bytes are read. -/
structure Pending where
  -- the bytes read, the last one first
  taken : List UInt8
  first : UInt8
  -- the bits of the code point so far
  code : Nat
  missing : Nat
  -- the least value of the next byte
  low : Nat
  high : Nat

/-- What a byte starts: a character of its own, one of several bytes, or none. -/
inductive Start where
  | whole (c : Char)
  | several (pending : Pending)
  | none

def start (b : UInt8) : Start :=
  let n := b.toNat
  if n < 0x80 then .whole (Char.ofNat n)
  else if n < 0xC2 then .none
  else if n < 0xE0 then .several ⟨[b], b, n - 0xC0, 1, 0x80, 0xBF⟩
  else if n = 0xE0 then .several ⟨[b], b, 0, 2, 0xA0, 0xBF⟩
  else if n = 0xED then .several ⟨[b], b, 0xD, 2, 0x80, 0x9F⟩
  else if n < 0xF0 then .several ⟨[b], b, n - 0xE0, 2, 0x80, 0xBF⟩
  else if n = 0xF0 then .several ⟨[b], b, 0, 3, 0x90, 0xBF⟩
  else if n < 0xF4 then .several ⟨[b], b, n - 0xF0, 3, 0x80, 0xBF⟩
  else if n = 0xF4 then .several ⟨[b], b, 4, 3, 0x80, 0x8F⟩
  else .none

/-- What comes of reading bytes: characters, then a character cut off, or a fault. -/
structure Reading where
  chars : List Char
  rest : Except Utf8Fault (Option Pending)

def Reading.after (c : Char) (reading : Reading) : Reading :=
  { reading with chars := c :: reading.chars }

/-- Read bytes, the first one at `position`, the character `pending` before them. -/
def readFrom (position : Nat) (pending : Option Pending) : List UInt8 → Reading
  | [] => ⟨[], .ok pending⟩
  | b :: bytes =>
    match pending with
    | none =>
      match start b with
      | .whole c => (readFrom (position + 1) none bytes).after c
      | .several p => readFrom (position + 1) (some p) bytes
      | .none => ⟨[], .error ⟨.startByte, b, position, 1⟩⟩
    | some p =>
      if p.low ≤ b.toNat ∧ b.toNat ≤ p.high then
        let code := p.code * 64 + (b.toNat - 0x80)
        if p.missing ≤ 1 then (readFrom (position + 1) none bytes).after (Char.ofNat code)
        else
          readFrom (position + 1)
            (some ⟨b :: p.taken, p.first, code, p.missing - 1, 0x80, 0xBF⟩) bytes
      else
        let count := p.taken.length
        ⟨[], .error ⟨.continuationByte, p.first, position - count, count⟩⟩

def cutOff (position : Nat) (p : Pending) : Utf8Fault :=
  let count := p.taken.length
  ⟨.endOfData, p.first, position - count, count⟩

def decode (bytes : List UInt8) : Except Utf8Fault (List Char) :=
  let reading := readFrom 0 none bytes
  match reading.rest with
  | .ok none => .ok reading.chars
  | .ok (some p) => .error (cutOff bytes.length p)
  | .error fault => .error fault

/-- Whether a fault is a surrogate whose third byte is cut off at the end of a block.
`carried` tells how many bytes were carried into the block. -/
def isCutSurrogate (carried : Nat) (block : List UInt8) (fault : Utf8Fault) : Bool :=
  fault.first = 0xED && fault.position + 2 = carried + block.length
    && block.getLast?.any fun b => 0xA0 ≤ b.toNat && b.toNat ≤ 0xBF

/-- The text of blocks of bytes, as far as it goes, and the fault that ends it. -/
def decodeBlocks (pending : Option Pending) :
    List (List UInt8) → List Char × Option Utf8Fault
  | [] =>
    match pending with
    | none => ([], none)
    | some p => ([], some (cutOff p.taken.length p))
  | block :: rest =>
    let carried := (pending.map fun p => p.taken.length).getD 0
    let reading := readFrom carried pending block
    match reading.rest with
    | .error fault =>
      if isCutSurrogate carried block fault then
        (reading.chars, some { fault with position := 0 })
      else ([], some fault)
    | .ok pending =>
      let (chars, fault) := decodeBlocks pending rest
      (reading.chars ++ chars, fault)

end Utf8

end SegmentFit
