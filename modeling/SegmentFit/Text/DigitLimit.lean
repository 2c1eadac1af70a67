import SegmentFit.Text.Numeral

/-!
# Digit limits — the integers that can be written

An integer is written in decimal only if it has no more digits than a limit allows. The
limit is a setting: there may be none, and one that is set is of 640 digits at least. The
standard one is that of the numerals that are read. An integer beyond the limit is
refused, whatever text it was to stand in.
-/

namespace SegmentFit

/-- How many digits an integer may have to be written, if there is a limit. -/
structure DigitLimit where
  digits : Option Nat
  least : ∀ d ∈ digits, 640 ≤ d

namespace DigitLimit

def unlimited : DigitLimit where
  digits := none
  least := nofun

def standard : DigitLimit where
  digits := some Numeral.digitLimit
  least := by
    rintro _ ⟨⟩
    decide

/-- Whether an integer can be written. Its sign does not count. -/
def allows (limit : DigitLimit) (n : Int) : Bool :=
  limit.digits.all fun d => decide (n.natAbs < Nat.pow 10 d)

/-- The text of a refusal to write an integer; without a limit none is refused. -/
def message (limit : DigitLimit) : String :=
  match limit.digits with
  | some d =>
    s!"Exceeds the limit ({d} digits) for integer string conversion; "
      ++ "use sys.set_int_max_str_digits() to increase the limit"
  | none => ""

end DigitLimit

end SegmentFit
