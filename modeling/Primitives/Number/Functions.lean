import Primitives.Elementary.Logarithm
import Primitives.Elementary.Roots
import Primitives.Elementary.Trigonometry
import Primitives.Number.Basic

/-!
# Functions of numbers

The functions that programs apply to numbers are functions of doubles: an integer is rounded to a
double first, and one that is too large for a double is a fault. Some functions decide part of their
domain before they round, by exact comparison, and give no number or an infinity there, so that large
integers are no fault in that part. The growing functions take a fault for an overflow.

## Main definitions

* `Number.applied`: a function of doubles applied to a number.
* `Number.sqrt`, `Number.acosh`, `Number.asin`, …: functions with a domain.
* `Number.exp`, `Number.expm1`, `Number.cosh`, `Number.pow`: growing functions.
* `Number.fmod`, `Number.toRadians`, `Number.toDegrees`.
* `Number.pi`, `Number.euler`, …: constants.
-/

namespace Primitives.Number

/-! ### Rounding first -/

/-- A function of doubles applied to a number. -/
def applied {α : Type} (f : Double → α) (x : Number) : Except TooLargeForDouble α :=
  x.toDouble.map f

/-- A function of two doubles applied to two numbers. -/
def applied₂ {α : Type} (f : Double → Double → α) (x y : Number) : Except TooLargeForDouble α := do
  let a ← x.toDouble
  let b ← y.toDouble
  return f a b

/-! ### Domains decided by comparison -/

/-- Whether a number lies in the part of the line above another one. -/
def exceeds (x bound : Number) : Bool :=
  bound.lt x

/-- The square root; negative numbers have none. -/
def sqrt (x : Number) : Except TooLargeForDouble Double :=
  if x.lt (int 0) then .ok .nan else x.applied Double.sqrt

/-- The area cosine; numbers below one have none. -/
def acosh (x : Number) : Except TooLargeForDouble Double :=
  if x.lt (int 1) then .ok .nan else x.applied Double.acosh

/-- Applies a function whose domain ends at one and minus one; numbers beyond have no value. -/
def withinOne (f : Double → Double) (x : Number) : Except TooLargeForDouble Double :=
  if x.abs.exceeds (int 1) then .ok .nan else x.applied f

def asin : Number → Except TooLargeForDouble Double :=
  withinOne Double.asin

def acos : Number → Except TooLargeForDouble Double :=
  withinOne Double.acos

/-- The area tangent, infinite at one and minus one. -/
def atanh : Number → Except TooLargeForDouble Double :=
  withinOne Double.atanh

/-- The remainder of a division cut towards zero. Infinite dividends and zero divisors have none, even
if the divisor or the dividend is no number. -/
def fmod (x y : Number) : Except TooLargeForDouble Double := do
  let a ← x.toDouble
  if a.isInfinite || y.eqv (int 0) then return .nan
  return a.remainder (← y.toDouble)

/-! ### Growing functions -/

/-- Applies a growing function; an integer too large for a double, of either sign, counts as an
overflow. -/
def orOverflow (f : Double → Double) (x : Number) : Double :=
  match x.toDouble with
  | .ok a => f a
  | .error _ => .infinite false

def exp : Number → Double :=
  orOverflow Double.exp

def expm1 : Number → Double :=
  orOverflow Double.expm1

def cosh : Number → Double :=
  orOverflow Double.cosh

/-- Powers. An integer too large for a double counts as an overflow: the result is infinite, and
negative if the base is negative and the exponent an odd integer. -/
def pow (base exponent : Number) : Except TooLargeForDouble Double :=
  match base.applied₂ Double.pow exponent with
  | .ok x => .ok x
  | .error _ =>
    if base.lt (int 0) then exponent.applied fun y => .infinite y.isOddInteger
    else .ok (.infinite false)

/-! ### Constants -/

/-- The double nearest to a positive decimal with 16 digits behind the point. -/
def ofTenQuadrillionths (n : Nat) : Double :=
  .ofRatio false n (10 ^ 16)

def pi : Double := ofTenQuadrillionths 31415926535897930

def euler : Double := ofTenQuadrillionths 27182818284590450

def tau : Double := ofTenQuadrillionths 62831853071795860

def sqrtTwo : Double := ofTenQuadrillionths 14142135623730951

def sqrtHalf : Double := ofTenQuadrillionths 7071067811865476

def lnTwo : Double := ofTenQuadrillionths 6931471805599453

def lnTen : Double := ofTenQuadrillionths 23025850929940460

def logTwoOfE : Double := ofTenQuadrillionths 14426950408889634

def logTenOfE : Double := ofTenQuadrillionths 4342944819032518

/-- The greatest finite double, `(2 ^ 53 - 1) * 2 ^ 971`. -/
def greatestDouble : Double :=
  .ofRatio false ((2 ^ 53 - 1) * 2 ^ 971) 1

/-- The least positive double: one unit. -/
def leastDouble : Double :=
  .ofUnits false 1 1

/-! ### Angles -/

/-- An angle in degrees as one in radians. -/
def toRadians (x : Number) : Except TooLargeForDouble Double :=
  x.applied fun a => (a.mul pi).div (.ofInt 180)

/-- An angle in radians as one in degrees. -/
def toDegrees (x : Number) : Except TooLargeForDouble Double :=
  x.applied fun a => (a.mul (.ofInt 180)).div pi

end Primitives.Number
