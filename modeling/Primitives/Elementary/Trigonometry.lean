import Primitives.Elementary.Series

/-!
# Trigonometric functions

An argument is reduced by quarter turns with enough binary places for the largest double, and the
series are summed for the rest. Arc functions reduce to the arc tangent of a quotient.

## Main definitions

* `Double.sin`, `Double.cos`, `Double.tan`: no number for infinite arguments.
* `Double.asin`, `Double.acos`, `Double.atan`, `Double.atan2`.
-/

namespace Primitives

namespace Fixed

/-- The nearest number of quarter turns in a magnitude and the fixed point number left over. -/
def reduceTurns (units : Nat) : Nat × Int :=
  let argument := units * 2 ^ (turnPlaces - unitScale)
  let turns := (argument + halfPi / 2) / halfPi
  let rest : Int := (argument : Int) - turns * halfPi
  (turns, rest.tdiv (2 ^ (turnPlaces - places)))

/-- The sine of a fixed point number of at most an eighth of a turn. -/
def smallSin (x : Int) : Int :=
  x.sign * sinSeries x.natAbs

/-- The cosine of a fixed point number of at most an eighth of a turn. -/
def smallCos (x : Int) : Int :=
  cosSeries x.natAbs

/-- The sine and the cosine of a magnitude in fixed point. -/
def sinCos (units : Nat) : Int × Int :=
  let (turns, rest) := reduceTurns units
  let s := smallSin rest
  let c := smallCos rest
  match turns % 4 with
  | 0 => (s, c)
  | 1 => (c, -s)
  | 2 => (-s, -c)
  | _ => (-c, s)

/-- The half of an angle given by its tangent: `t / (1 + √(1 + t²))`. -/
def halveTangent (t : Nat) : Nat :=
  quotient t (one + sqrtFloor (one * one + t * t))

/-- The arc tangent of a quotient of at most one. -/
def arcTangentBelowOne (num den : Nat) : Nat :=
  4 * atanSeries (halveTangent (halveTangent (quotient num den)))

/-- The angle of the point `(x, y)` in the first quadrant, not both zero. -/
def angle (y x : Nat) : Nat :=
  if y ≤ x then arcTangentBelowOne y x else quarterTurn - arcTangentBelowOne x y

end Fixed

namespace Double

open Fixed

/-- The double nearest to a quotient of integers with a positive divisor. -/
def ofQuotient (num : Int) (den : Nat) : Double :=
  ofRatio (num < 0) num.natAbs den

def sin (x : Double) : Double :=
  match x with
  | finite negative m =>
    if m.units = 0 then x
    else
      let s := (sinCos m.units).1
      ofQuotient (if negative then -s else s) one
  | _ => nan

def cos : Double → Double
  | finite _ m => ofQuotient (sinCos m.units).2 one
  | _ => nan

def tan (x : Double) : Double :=
  match x with
  | finite negative m =>
    if m.units = 0 then x
    else
      let (s, c) := sinCos m.units
      ofRatio (negative != decide (s * c < 0)) s.natAbs c.natAbs
  | _ => nan

/-! ### Arc functions -/

/-- The angle of a point given by signs and absolute coordinates: between minus a half turn and a
half turn. -/
def ofAngle (yNegative : Bool) (y : Nat) (xNegative : Bool) (x : Nat) : Double :=
  let a := if y = 0 then 0 else angle y x
  ofRatio yNegative (if xNegative then 2 * quarterTurn - a else a) one

/-- The length of the other side of a right triangle with hypotenuse one, in units. -/
def otherSide (units : Nat) : Nat :=
  sqrtFloor (2 ^ (2 * unitScale) - units * units)

/-- The arc sine; numbers beyond one and minus one have none. -/
def asin (x : Double) : Double :=
  match x with
  | finite negative m =>
    if m.units = 0 then x
    else if 2 ^ unitScale < m.units then nan
    else ofAngle negative m.units false (otherSide m.units)
  | _ => nan

/-- The arc cosine; numbers beyond one and minus one have none. -/
def acos (x : Double) : Double :=
  match x with
  | finite negative m =>
    if 2 ^ unitScale < m.units then nan
    else ofAngle false (otherSide m.units) negative m.units
  | _ => nan

/-- The angle of the point `(x, y)`, with the sign of `y`. -/
def atan2 (y x : Double) : Double :=
  match y, x with
  | nan, _ | _, nan => nan
  | infinite a, infinite b => ofAngle a 1 b 1
  | infinite a, finite .. => ofAngle a 1 false 0
  | finite a _, infinite b => ofAngle a 0 b 1
  | finite a m, finite b n => ofAngle a m.units b n.units

def atan (x : Double) : Double :=
  match x with
  | finite _ m => if m.units = 0 then x else atan2 x (ofInt 1)
  | x => atan2 x (ofInt 1)

end Double

end Primitives
