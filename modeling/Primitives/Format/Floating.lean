import Primitives.Number.Decimal

/-!
# Fixed, exponent and general notation

A double is written with a given number of digits behind the point, with a given number of digits
behind the first one and an exponent, or in the shorter of the two for a given number of significant
digits. The exact value is rounded, a tie going to the even digit.

## Main definitions

* `Notation.fixed`, `Notation.exponent`, `Notation.general`: the three notations of a magnitude.
* `Double.general`: the general notation of a double with its sign.
-/

namespace Primitives

namespace Notation

/-- Digits behind a point; without digits the point is kept only on request. -/
def withPoint (keepPoint : Bool) (fraction : Text) : Text :=
  if fraction.isEmpty && !keepPoint then [] else '.' :: fraction

/-- A magnitude with `places` digits behind the point. -/
def fixed (keepPoint : Bool) (places units : Nat) : Text :=
  let digits := Numeral.ofNat 10 (roundedAt units (-places))
  let digits := List.replicate (places + 1 - digits.length) '0' ++ digits
  let whole := digits.length - places
  digits.take whole ++ withPoint keepPoint (digits.drop whole)

/-- The first `places + 1` significant digits of a magnitude and the exponent of the first one.
Rounding up to a further digit moves the exponent. -/
def significantDigits (places units : Nat) : Text × Int :=
  if units = 0 then (List.replicate (places + 1) '0', 0)
  else
    let e := decimalExponent units
    let digits := Numeral.ofNat 10 (roundedAt units (e - places))
    if places + 1 < digits.length then (digits.take (places + 1), e + 1) else (digits, e)

/-- Digits with a point behind the first one, and an exponent. -/
def scientific (keepPoint : Bool) (digits : Text) (e : Int) : Text :=
  digits.take 1 ++ withPoint keepPoint (digits.drop 1) ++ ['e'] ++ exponentText e

/-- A magnitude with `places` digits behind the point and an exponent. -/
def exponent (keepPoint : Bool) (places units : Nat) : Text :=
  let (digits, e) := significantDigits places units
  scientific keepPoint digits e

/-- A magnitude with `count` significant digits, at least one: around a point for exponents from -4
up to below the number of digits, and with an exponent otherwise. Zeros at the end of the fraction
are dropped unless `keepZeros`. -/
def general (keepZeros : Bool) (count units : Nat) : Text :=
  let count := max count 1
  let (digits, e) := significantDigits (count - 1) units
  let shown := if keepZeros then digits else withoutTrailingZeros digits
  if -4 ≤ e ∧ e < count then
    let (whole, fraction) := wholeAndFraction shown e
    whole ++ withPoint keepZeros fraction
  else scientific keepZeros (if shown.isEmpty then digits.take 1 else shown) e

end Notation

namespace Double

/-- The text of a double with its sign, given the notation of magnitudes. -/
def inNotation (write : Nat → Text) : Double → Text
  | finite negative m => if negative then '-' :: write m.units else write m.units
  | infinite negative => if negative then "-inf" else "inf"
  | nan => "nan"

/-- The text of a double with six significant digits. -/
def general : Double → Text :=
  inNotation (Notation.general false 6)

end Double

end Primitives
