import Primitives.Number.Decimal

/-!
# Shortest decimal text of a double

The text of a double has the fewest significant digits that read back as the same double and, among
those, the digits nearest to it. On the grid of multiples of a power of ten only the two neighbours
of the value need to be tried. The digits are written around a point when the decimal exponent lies
in `-4, …, 15` and with an exponent otherwise.

## Main definitions

* `shortestOn?`: the grid neighbour of a magnitude that reads back.
* `shortest`: the shortest decimal form.
* `Double.text`: the shortest text of a double.
-/

namespace Primitives

/-- Whether a decimal form reads back as a magnitude. -/
def readsBack (units : Nat) (d : Decimal) : Bool :=
  match Double.ofDecimal false d with
  | .finite _ magnitude => magnitude.units == units
  | _ => false

/-- The neighbour of a magnitude among the multiples of `10 ^ place` that reads back, the nearer one
first. -/
def shortestOn? (units : Nat) (place : Int) : Option Decimal :=
  let (num, den) := placeRatio units place
  let near := roundHalfEven num den
  let far := if near = num / den then near + 1 else num / den
  [⟨near, place⟩, ⟨far, place⟩].find? (readsBack units)

/-- The exact decimal form of a magnitude. -/
def exactDecimal (units : Nat) : Decimal :=
  ⟨units * 5 ^ unitScale, -unitScale⟩

/-- The decimal form of a positive magnitude on the coarsest grid that reads back. Seventeen digits
always suffice; the exact form stands for the case that does not arise. -/
def shortest (units : Nat) : Decimal :=
  let exponent := decimalExponent units
  let grids := (List.range 17).map fun (n : Nat) => exponent - n
  (grids.findSome? (shortestOn? units)).getD (exactDecimal units)

namespace Double

/-- The significant digits of a decimal form and the exponent of the first one. -/
def significant (d : Decimal) : Text × Int :=
  let digits := Numeral.ofNat 10 d.digits
  (withoutTrailingZeros digits, d.exponent + digits.length - 1)

/-- The text of a positive magnitude. -/
def magnitudeText (units : Nat) : Text :=
  let (digits, exponent) := significant (shortest units)
  if -4 ≤ exponent ∧ exponent < 16 then
    let (whole, fraction) := wholeAndFraction digits exponent
    whole ++ ['.'] ++ if fraction.isEmpty then ['0'] else fraction
  else
    let fraction := digits.drop 1
    digits.take 1 ++ (if fraction.isEmpty then [] else '.' :: fraction) ++ ['e']
      ++ exponentText exponent

/-- The shortest text that reads back as a double. -/
def text : Double → Text
  | finite negative magnitude =>
    let body : Text := if magnitude.units = 0 then "0.0" else magnitudeText magnitude.units
    if negative then '-' :: body else body
  | infinite negative => if negative then "-inf" else "inf"
  | nan => "nan"

end Double

end Primitives
