import Primitives.Number.Double

/-!
# Fixed point series

The elementary functions are computed in fixed point with 1300 binary places, which resolves the
smallest double to more than two hundred significant digits, and rounded to a double at the end. This
file sums the power series and computes the constants they need.

## Main definitions

* `Fixed.one`: one in fixed point.
* `Fixed.expSeries`, `Fixed.sinSeries`, `Fixed.cosSeries`, `Fixed.atanSeries`,
  `Fixed.atanhSeries`: the power series.
* `Fixed.log2`, `Fixed.halfPi`: the constants for reducing arguments.
-/

namespace Primitives.Fixed

/-- The number of binary places. -/
def places : Nat := 1300

/-- One in fixed point. -/
def one : Nat := 2 ^ places

/-- A quotient in fixed point. -/
def quotient (num den : Nat) : Nat :=
  num * one / den

def mul (a b : Nat) : Nat :=
  a * b / one

/-- Adds up terms `t` while they last, each divided by what `divisor` gives for its index, where
`step` makes the next term; `fuel` bounds the number of terms. -/
def sumTerms (step : Nat → Nat → Nat) (divisor : Nat → Nat) : (fuel n t : Nat) → Nat
  | 0, _, _ => 0
  | fuel + 1, n, t =>
    if t = 0 then 0 else t / divisor n + sumTerms step divisor fuel (n + 1) (step n t)

/-- Terms with alternating signs, the first one positive. -/
def sumAlternating (step : Nat → Nat → Nat) (divisor : Nat → Nat) : (fuel n t : Nat) → Int
  | 0, _, _ => 0
  | fuel + 1, n, t =>
    if t = 0 then 0
    else (t / divisor n : Nat) - sumAlternating step divisor fuel (n + 1) (step n t)

/-- A bound on the number of terms of every series below. -/
def termLimit : Nat := 2000

/-! ### Power series of arguments below one -/

/-- `1 + x + x² / 2! + x³ / 3! + …`, with one as its first term. -/
def expSeries (x : Nat) : Nat :=
  one + sumTerms (fun n t => mul t x / (n + 1)) (fun _ => 1) termLimit 1 x

/-- `x - x³ / 3! + x⁵ / 5! - …`. -/
def sinSeries (x : Nat) : Nat :=
  let square := mul x x
  (sumAlternating (fun n t => mul t square / ((2 * n + 2) * (2 * n + 3))) (fun _ => 1)
    termLimit 0 x).toNat

/-- `1 - x² / 2! + x⁴ / 4! - …`. -/
def cosSeries (x : Nat) : Nat :=
  let square := mul x x
  (sumAlternating (fun n t => mul t square / ((2 * n + 1) * (2 * n + 2))) (fun _ => 1)
    termLimit 0 one).toNat

/-- `x - x³ / 3 + x⁵ / 5 - …`. -/
def atanSeries (x : Nat) : Nat :=
  let square := mul x x
  (sumAlternating (fun _ t => mul t square) (fun n => 2 * n + 1) termLimit 0 x).toNat

/-- `x + x³ / 3 + x⁵ / 5 + …`. -/
def atanhSeries (x : Nat) : Nat :=
  let square := mul x x
  sumTerms (fun _ t => mul t square) (fun n => 2 * n + 1) termLimit 0 x

/-! ### Constants -/

/-- The natural logarithm of two, as twice the area tangent of a third. -/
def log2 : Nat :=
  2 * atanhSeries (quotient 1 3)

/-- The number of binary places of the quarter turn, enough to reduce the largest double. -/
def turnPlaces : Nat := 2600

/-- The arc tangent of `1 / n` with `turnPlaces` binary places. -/
def arcTangentOfInverse (n : Nat) : Int :=
  sumAlternating (fun _ t => t / (n * n)) (fun k => 2 * k + 1) termLimit 0 (2 ^ turnPlaces / n)

/-- Half of the circle number with `turnPlaces` binary places, by the arc tangents of a fifth and of
a 239th. -/
def halfPi : Nat :=
  (8 * arcTangentOfInverse 5 - 2 * arcTangentOfInverse 239).toNat

/-- Half of the circle number in fixed point. -/
def quarterTurn : Nat :=
  halfPi / 2 ^ (turnPlaces - places)

end Primitives.Fixed
