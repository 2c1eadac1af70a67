import SegmentFit.Text.DigitLimit

/-!
# Faults — what a refused computation is seen as

A computation that is refused says why by a fault. Its caller sees an error, which has a
kind and a text. The text is put together when the error is: if it shows an integer that
is too long to be written, that refusal is all that is seen, and nothing of the fault.
-/

namespace SegmentFit

inductive FaultKind where
  | assertion
  | index
  | overflow
  | type
  | value
  deriving DecidableEq, Repr

/-- An error as the caller sees it. -/
structure Raised where
  kind : FaultKind
  message : String
  deriving DecidableEq, Repr

/-- Reasons for which a computation is refused. -/
class Fault (ε : Type) where
  kind : ε → FaultKind
  /-- The integers that the message shows. -/
  numbers : ε → List Int
  message : ε → String

namespace DigitLimit

/-- The error of an integer that is too long to be written. -/
def refusal (limit : DigitLimit) : Raised :=
  ⟨.value, limit.message⟩

/-- What a fault is seen as. -/
def raised {ε : Type} [Fault ε] (limit : DigitLimit) (fault : ε) : Raised :=
  if (Fault.numbers fault).all limit.allows then ⟨Fault.kind fault, Fault.message fault⟩
  else limit.refusal

end DigitLimit

end SegmentFit
