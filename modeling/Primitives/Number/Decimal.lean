import Primitives.Number.Double
import Primitives.Number.Numeral

/-!
# Decimal forms of doubles

A decimal form is a number of digits times a power of ten. Reading one rounds its exact value to the
nearest double; the bounds that decide overflow and underflow early keep huge exponents from being
multiplied out. Writing one rounds the exact value of a double at a decimal place.

## Main definitions

* `Decimal`: digits times a power of ten.
* `Double.ofDecimal`: the double nearest to a decimal form.
* `decimalExponent`: the decimal exponent of a magnitude.
* `roundedAt`: a magnitude rounded at a decimal place.
* `wholeAndFraction`, `exponentText`: the layout of digits around a point or with an exponent.
-/

namespace Primitives

/-- The number `digits * 10 ^ exponent`. -/
structure Decimal where
  digits : Nat
  exponent : Int
deriving DecidableEq

/-! ### Reading -/

/-- The numerator and denominator of a decimal form. -/
def Decimal.ratio (d : Decimal) : Nat × Nat :=
  (d.digits * 10 ^ d.exponent.toNat, 10 ^ (-d.exponent).toNat)

/-- The double nearest to a decimal form with a sign. A form with digits and an exponent from 309 on
lies above all doubles; `digits < 2 ^ (log2 digits + 1)` and `2 ^ 3 ≤ 10` bound it below half a unit
in the other case. -/
def Double.ofDecimal (negative : Bool) (d : Decimal) : Double :=
  if d.digits = 0 then zero negative
  else if 309 ≤ d.exponent then infinite negative
  else if d.digits.log2 + 1080 < 3 * (-d.exponent).toNat then zero negative
  else ofRatio negative d.ratio.1 d.ratio.2

/-! ### Rounding at a decimal place -/

/-- The quotient of a number of units and `10 ^ place` as numerator and denominator. -/
def placeRatio (units : Nat) (place : Int) : Nat × Nat :=
  (units * 10 ^ (-place).toNat, 2 ^ unitScale * 10 ^ place.toNat)

/-- The number of multiples of `10 ^ place` nearest to a magnitude, a tie going to the even one. -/
def roundedAt (units : Nat) (place : Int) : Nat :=
  let (num, den) := placeRatio units place
  roundHalfEven num den

/-- The exponent of the greatest power of ten that is at most a positive magnitude. One unit is more
than `10 ^ (-324)`. -/
def decimalExponent (units : Nat) : Int :=
  let (num, den) := placeRatio units (-324)
  (Numeral.ofNat 10 (num / den)).length - 325

/-! ### Layout -/

/-- The digits before and behind the point when the first digit has the given exponent. -/
def wholeAndFraction (digits : Text) (exponent : Int) : Text × Text :=
  if exponent < 0 then (['0'], List.replicate (-exponent - 1).toNat '0' ++ digits)
  else
    let count := exponent.toNat + 1
    (digits.take count ++ List.replicate (count - digits.length) '0', digits.drop count)

/-- The digits of an exponent, at least two, behind its sign. -/
def exponentText (exponent : Int) : Text :=
  let digits := Numeral.ofNat 10 exponent.natAbs
  (if exponent < 0 then '-' else '+') :: List.replicate (2 - digits.length) '0' ++ digits

/-- The digits without the zeros at their end. -/
def withoutTrailingZeros (digits : Text) : Text :=
  (digits.reverse.dropWhile (· == '0')).reverse

end Primitives
