import Primitives.Elementary.Exponential

/-!
# Logarithms, powers and area functions

The logarithm of a quotient of natural numbers is a multiple of the logarithm of two and the area
tangent of a small argument. A power is the growth of the exponent times the logarithm of the base.

## Main definitions

* `Fixed.logRatio`: the logarithm of a quotient.
* `Double.log`, `Double.log2`, `Double.log10`, `Double.log1p`: logarithms, minus infinity at their
  pole and no number below it.
* `Double.pow`: powers.
* `Double.asinh`, `Double.acosh`, `Double.atanh`: area functions.
-/

namespace Primitives

namespace Fixed

/-- The logarithm of a positive quotient in fixed point. With `k` the difference of the binary
lengths the quotient is `2 ^ k` times a number between a half and two. -/
def logRatio (num den : Nat) : Int :=
  let k : Int := (num.log2 : Int) - den.log2
  let a := num * 2 ^ (-k).toNat
  let b := den * 2 ^ k.toNat
  let z := if b ≤ a then (atanhSeries (quotient (a - b) (a + b)) : Int)
    else -(atanhSeries (quotient (b - a) (a + b)) : Int)
  k * log2 + 2 * z

end Fixed

namespace Double

open Fixed

/-- The double nearest to a fixed point number; zero is positive. -/
def ofFixed (x : Int) : Double :=
  ofRatio (x < 0) x.natAbs one

/-- The double nearest to a quotient of a fixed point number and a positive one. -/
def ofFixedQuotient (x : Int) (y : Nat) : Double :=
  ofRatio (x < 0) x.natAbs y

/-! ### Logarithms -/

/-- A logarithm with respect to a base, given by the fixed point logarithm of that base. -/
def logOver (base : Nat) : Double → Double
  | nan => nan
  | infinite negative => if negative then nan else infinite false
  | finite negative m =>
    if m.units = 0 then infinite true
    else if negative then nan
    else ofFixedQuotient (logRatio m.units (2 ^ unitScale)) base

def log : Double → Double :=
  logOver one

def log2 : Double → Double :=
  logOver Fixed.log2

def log10 : Double → Double :=
  logOver (logRatio 10 1).toNat

/-- The logarithm of one more, exact near zero. -/
def log1p (x : Double) : Double :=
  match x with
  | nan => nan
  | infinite negative => if negative then nan else x
  | finite negative m =>
    if m.units = 0 then x
    else
      let argument := signedUnits negative m.units + 2 ^ unitScale
      if argument = 0 then infinite true
      else if argument < 0 then nan
      else ofFixed (logRatio argument.toNat (2 ^ unitScale))

/-! ### Powers -/

/-- Whether a double is an integer. -/
def isInteger : Double → Bool
  | finite _ m => m.units % 2 ^ unitScale = 0
  | _ => false

/-- Whether a double is an odd integer. -/
def isOddInteger : Double → Bool
  | finite _ m => m.units % 2 ^ (unitScale + 1) = 2 ^ unitScale
  | _ => false

/-- Whether a double is one. -/
def isOne : Double → Bool
  | finite negative m => !negative && m.units = 2 ^ unitScale
  | _ => false

/-- The power of a positive finite base to a finite exponent, with a sign: the growth of the product
of the exponent and the logarithm of the base, or the reciprocal of a growth. -/
def powPositive (negative : Bool) (base : Nat) (exponentNegative : Bool) (exponent : Nat) :
    Double :=
  let logarithm := logRatio base (2 ^ unitScale)
  let argument := exponent * logarithm.natAbs / 2 ^ unitScale
  (ofGrowth (exponentNegative != decide (logarithm < 0)) argument).withSign negative

/-- Powers. The zeroth power and all powers of one are one; a zero or an infinity as base gives a
zero or an infinity, with the sign of the base for an odd integer as exponent; a negative base has
powers to integers only. -/
def pow (x y : Double) : Double :=
  let one := ofInt 1
  if y.isZero || x.isOne then one
  else
    match x, y with
    | nan, _ | _, nan => nan
    | infinite a, y =>
      let negative := a && y.isOddInteger
      if y.isNegative then zero negative else infinite negative
    | finite _ m, infinite b =>
      if m.units = 2 ^ unitScale then one
      else if decide (2 ^ unitScale < m.units) != b then infinite false
      else zero false
    | finite a m, finite b n =>
      let negative := a && y.isOddInteger
      if m.units = 0 then if b then infinite negative else zero negative
      else if a && !y.isInteger then nan
      else powPositive negative m.units b n.units

/-! ### Area functions -/

def asinh (x : Double) : Double :=
  match x with
  | finite negative m =>
    if m.units = 0 then x
    else
      let root := sqrtFloor (m.units * m.units + 2 ^ (2 * unitScale))
      (ofFixed (logRatio (m.units + root) (2 ^ unitScale))).withSign negative
  | x => x

/-- The area cosine; numbers below one have none. -/
def acosh (x : Double) : Double :=
  match x with
  | nan => nan
  | infinite negative => if negative then nan else x
  | finite negative m =>
    if negative || m.units < 2 ^ unitScale then nan
    else
      let root := sqrtFloor (m.units * m.units - 2 ^ (2 * unitScale))
      ofFixed (logRatio (m.units + root) (2 ^ unitScale))

/-- The area tangent: infinite at one and minus one, and no number beyond them. -/
def atanh (x : Double) : Double :=
  match x with
  | nan => nan
  | infinite _ => nan
  | finite negative m =>
    if m.units = 0 then x
    else if m.units = 2 ^ unitScale then infinite negative
    else if 2 ^ unitScale < m.units then nan
    else
      let logarithm := logRatio (2 ^ unitScale + m.units) (2 ^ unitScale - m.units)
      (ofFixedQuotient logarithm (2 * one)).withSign negative

end Double

end Primitives
