/-!
# Binary numbers of 64 bits

A number with a fraction is kept in binary, with 53 significant bits. A finite one is a
significand shifted to the left, counted in the smallest positive number, which is
2 to the power of -1074; so every finite number is a whole count of these units, and
numbers are compared by their counts. Zero has a sign, there are two infinities, and
`undefined` is what has no value.

`ofDecimal` gives the nearest number to a decimal one; of two that are equally near it
gives the one with an even significand.
-/

namespace SegmentFit

/-- A binary number. -/
inductive Binary64 where
  -- the significand shifted to the left, in units of the smallest positive number
  | finite (negative : Bool) (significand shift : Nat)
  | infinite (negative : Bool)
  | undefined
  deriving DecidableEq, Repr

namespace Binary64

/-- The power of two that is one unit, without its sign. -/
def unitPower : Nat := 1074

/-- The first significand with too many bits. -/
def significandLimit : Nat := 0x20000000000000

/-- The greatest shift of a finite number. -/
def greatestShift : Nat := 2045

def zero (negative : Bool) : Binary64 := .finite negative 0 0

/-- A quotient rounded to the nearest whole number, to the even one if both are near. -/
def roundedQuotient (numerator denominator : Nat) : Nat :=
  let below := numerator / denominator
  let rest := numerator % denominator
  if 2 * rest < denominator then below
  else if denominator < 2 * rest then below + 1
  else if below % 2 = 0 then below else below + 1

/-- The nearest number to a quotient of units. -/
def ofUnits (negative : Bool) (numerator denominator : Nat) : Binary64 :=
  let shift := (numerator / denominator).log2 - 52
  let significand := roundedQuotient numerator (denominator * Nat.pow 2 shift)
  let (significand, shift) :=
    if significand = significandLimit then (significand / 2, shift + 1) else (significand, shift)
  if greatestShift < shift then .infinite negative else .finite negative significand shift

/-- Whole numbers with more digits than this are beyond all finite numbers. -/
def mostDigits : Int := 310

/-- Fractions with more zeros behind the point than this are nearest to zero. -/
def mostZeros : Int := 330

/-- The nearest number to `digits` times ten to the power of `exponent`. -/
def ofDecimal (negative : Bool) (digits : Nat) (exponent : Int) : Binary64 :=
  let point := (Nat.toDigits 10 digits).length + exponent
  if digits = 0 ∨ point < -mostZeros then zero negative
  else if mostDigits < point then .infinite negative
  else
    ofUnits negative (digits * Nat.pow 10 exponent.toNat * Nat.pow 2 unitPower)
      (Nat.pow 10 (-exponent).toNat)

def units? : Binary64 → Option Int
  | .finite negative significand shift =>
    let count := significand * Nat.pow 2 shift
    some (if negative then -(count : Int) else count)
  | _ => none

def unitsOfInt (n : Int) : Int :=
  n * (Nat.pow 2 unitPower : Nat)

/-- Whether two numbers are equal. The two zeros are; what has no value equals nothing. -/
def same : Binary64 → Binary64 → Bool
  | .infinite a, .infinite b => a == b
  | a, b =>
    match a.units?, b.units? with
    | some m, some n => m == n
    | _, _ => false

def sameInt (a : Binary64) (n : Int) : Bool :=
  a.units? == some (unitsOfInt n)

example : ofDecimal false 1 400 = .infinite false := by decide +kernel
example : ofDecimal true 5 (-324) = .finite true 1 0 := by decide +kernel
example : (ofDecimal false 9007199254740993 0).sameInt 9007199254740992 = true := by decide +kernel
example : (zero true).same (zero false) = true ∧ undefined.same undefined = false := by decide +kernel

end Binary64

end SegmentFit
