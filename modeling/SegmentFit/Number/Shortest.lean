import SegmentFit.Number.Binary64

/-!
# The shortest decimal of a binary number

A binary number is written with the fewest decimal digits that are still nearer to it
than to any other one. The numbers that are nearest to it form an interval, from halfway
to the one below to halfway to the one above; its ends belong to it if the significand
is even, since a decimal halfway between two goes to the even one.

A grid is searched for each number of digits, from the coarsest on. The two points of a
grid next to the number are tried. If both are in the interval the nearer one is taken,
and the even one if both are equally near. All is counted exactly, in quarters of units
scaled by a power of ten.

The digits are laid out with a point among or next to them, or as a power of ten if the
point would stand more than four places before the first of them, or more than sixteen
behind it.
-/

namespace SegmentFit

/-- A decimal number: `digits` times ten to the power of `exponent`. -/
structure Decimal where
  digits : Nat
  exponent : Int
  deriving DecidableEq, Repr

/-- The decimals that are nearer to a number than to any other one, and the number. -/
structure NearInterval where
  low : Nat
  value : Nat
  high : Nat
  -- whether the ends belong to the interval
  closed : Bool
  deriving DecidableEq, Repr

namespace NearInterval

/-- The interval of a positive number in quarters of units, scaled by ten to the power of
1074. A number whose significand is a power of two has a nearer one below it. -/
def of (significand shift : Nat) : NearInterval :=
  let scale := Nat.pow 2 shift * Nat.pow 5 Binary64.unitPower
  let isNarrow := significand * 2 = Binary64.significandLimit ∧ 0 < shift
  { low := (4 * significand - if isNarrow then 1 else 2) * scale
    value := 4 * significand * scale
    high := (4 * significand + 2) * scale
    closed := significand % 2 = 0 }

def contains (i : NearInterval) (point : Nat) : Bool :=
  (decide (i.low < point) || (i.closed && i.low == point))
    && (decide (point < i.high) || (i.closed && point == i.high))

/-- The point of a grid in an interval that is nearest to its value, if there is one, as a
multiple of the width of the grid. -/
def onGrid? (i : NearInterval) (width : Nat) : Option Nat :=
  let below := i.value / width
  let isNearer := decide (2 * i.value < (2 * below + 1) * width)
    || ((2 * i.value == (2 * below + 1) * width) && below % 2 == 0)
  match i.contains (below * width), i.contains ((below + 1) * width) with
  | true, true => some (if isNearer then below else below + 1)
  | true, false => some below
  | false, true => some (below + 1)
  | false, false => none

/-- The decimal on the coarsest grid with a point in the interval, given how many digits
are left out at most. -/
def coarsest (i : NearInterval) : Nat → Decimal
  | 0 => ⟨i.value / 4, -(Binary64.unitPower : Int)⟩
  | dropped + 1 =>
    match i.onGrid? (4 * Nat.pow 10 (dropped + 1)) with
    | some digits => ⟨digits, (dropped + 1 : Nat) - (Binary64.unitPower : Int)⟩
    | none => i.coarsest dropped

end NearInterval

namespace Decimal

def shortest (significand shift : Nat) : Decimal :=
  let i := NearInterval.of significand shift
  i.coarsest (Nat.toDigits 10 i.high).length

/-- An exponent of ten with its sign and at least two digits. -/
def exponentText (exponent : Int) : List Char :=
  let digits := Nat.toDigits 10 exponent.natAbs
  (if exponent < 0 then '-' else '+') :: (if digits.length < 2 then '0' :: digits else digits)

def text (d : Decimal) : List Char :=
  let digits := Nat.toDigits 10 d.digits
  let point : Int := digits.length + d.exponent
  if point ≤ -4 ∨ 16 < point then
    let fraction := digits.drop 1
    digits.take 1 ++ (if fraction.isEmpty then [] else '.' :: fraction)
      ++ 'e' :: exponentText (point - 1)
  else if point ≤ 0 then
    '0' :: '.' :: List.replicate (-point).toNat '0' ++ digits
  else if digits.length ≤ point.toNat then
    digits ++ List.replicate (point.toNat - digits.length) '0' ++ ['.', '0']
  else digits.take point.toNat ++ '.' :: digits.drop point.toNat

end Decimal

def Binary64.text (infinity undefined : List Char) : Binary64 → List Char
  | .undefined => undefined
  | .infinite negative => if negative then '-' :: infinity else infinity
  | .finite negative significand shift =>
    let magnitude :=
      if significand = 0 then ['0', '.', '0'] else (Decimal.shortest significand shift).text
    if negative then '-' :: magnitude else magnitude

example : Decimal.shortest 1 0 = ⟨5, -324⟩ := by decide +kernel
example : (Decimal.mk 15 (-1)).text = ['1', '.', '5'] := by decide +kernel
example : (Decimal.mk 1 16).text = ['1', 'e', '+', '1', '6'] := by decide +kernel
example : (Decimal.mk 2 (-7)).text = ['2', 'e', '-', '0', '7'] := by decide +kernel

end SegmentFit
