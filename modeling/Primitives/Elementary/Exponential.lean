import Primitives.Elementary.Series

/-!
# Exponentials and hyperbolic functions

The exponential of a non-negative argument, its *growth*, is a number of at least one. A negative
argument takes the reciprocal, so its exponential is at most one, and the hyperbolic functions
combine a growth with its reciprocal.

## Main definitions

* `Fixed.growth`: the exponential of a non-negative fixed point number.
* `Double.exp`, `Double.expm1`, `Double.sinh`, `Double.cosh`, `Double.tanh`.
-/

namespace Primitives

namespace Fixed

/-- A magnitude in fixed point; a unit is an integral number of last places. -/
def ofUnits (units : Nat) : Nat :=
  units * 2 ^ (places - unitScale)

/-- The exponential of `x` in fixed point: the multiples of the logarithm of two become powers of
two. -/
def growth (x : Nat) : Nat :=
  expSeries (x % log2) * 2 ^ (x / log2)

/-- Arguments from here on have an exponential beyond all doubles. -/
def growthLimit : Nat :=
  800 * one

end Fixed

namespace Double

open Fixed

/-- The exponential of a fixed point number, or of its negative as a reciprocal. -/
def ofGrowth (decay : Bool) (x : Nat) : Double :=
  if growthLimit ≤ x then if decay then zero false else infinite false
  else if decay then ofRatio false one (growth x)
  else ofRatio false (growth x) one

def exp : Double → Double
  | nan => nan
  | infinite negative => if negative then zero false else infinite false
  | finite negative m => ofGrowth negative (Fixed.ofUnits m.units)

/-- The exponential less one, exact near zero. -/
def expm1 (x : Double) : Double :=
  match x with
  | nan => nan
  | infinite negative => if negative then ofInt (-1) else x
  | finite negative m =>
    let argument := Fixed.ofUnits m.units
    if m.units = 0 then x
    else if growthLimit ≤ argument then if negative then ofInt (-1) else infinite false
    else
      let g := growth argument
      ofRatio negative (g - one) (if negative then g else one)

/-- Combines the growth of a magnitude with its reciprocal to `(g² ± 1) / (2 g)`, with a sign. -/
def ofHyperbola (negative : Bool) (join : Nat → Nat → Nat) (units : Nat) : Double :=
  let argument := Fixed.ofUnits units
  if growthLimit ≤ argument then infinite negative
  else
    let g := growth argument
    ofRatio negative (join (g * g) (one * one)) (2 * g * one)

def sinh (x : Double) : Double :=
  match x with
  | finite negative m => if m.units = 0 then x else ofHyperbola negative (· - ·) m.units
  | x => x

def cosh : Double → Double
  | nan => nan
  | infinite _ => infinite false
  | finite _ m => ofHyperbola false (· + ·) m.units

def tanh (x : Double) : Double :=
  match x with
  | nan => nan
  | infinite negative => ofInt (if negative then -1 else 1)
  | finite negative m =>
    let argument := Fixed.ofUnits m.units
    if m.units = 0 then x
    else if growthLimit ≤ argument then ofInt (if negative then -1 else 1)
    else
      let g := growth argument
      ofRatio negative (g * g - one * one) (g * g + one * one)

end Double

end Primitives
