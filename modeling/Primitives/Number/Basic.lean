import Primitives.Number.Double.Arithmetic
import Primitives.Number.Double.Order

/-!
# Numbers

A number is an integer of any size or a double; the two kinds are never identified. Arithmetic of two
integers is exact, and as soon as a double takes part the integer is rounded to a double first, which
fails for an integer too large for one. Comparisons never convert: they compare places.

## Main definitions

* `Number`: integers and doubles.
* `Number.toDouble`: rounding to a double.
* `Number.lt`, `Number.eqv`: exact comparison.
* `Number.add`, `Number.sub`, `Number.mul`: arithmetic.
-/

namespace Primitives

/-- An integer or a double. -/
inductive Number where
  | int (n : Int)
  | double (x : Double)
deriving DecidableEq

/-- An integer is too large for a double. -/
structure TooLargeForDouble where
deriving DecidableEq

namespace Number

/-- The double nearest to a number. -/
def toDouble : Number → Except TooLargeForDouble Double
  | double x => .ok x
  | int n =>
    let x := Double.ofInt n
    if x.isInfinite then .error {} else .ok x

/-! ### Comparison -/

/-- The place of a number on the line of units. -/
def place? : Number → Option Place
  | int n => some (.ofInt n)
  | double x => x.place?

def lt (a b : Number) : Bool :=
  placesLt a.place? b.place?

/-- Whether two numbers have equal values; an integer and a double may. -/
def eqv (a b : Number) : Bool :=
  placesEq a.place? b.place?

def isNaN : Number → Bool
  | double x => x.isNaN
  | int _ => false

/-! ### Arithmetic -/

/-- Applies an operation to two numbers: exactly to two integers, else to doubles. -/
def combine (onInts : Int → Int → Int) (onDoubles : Double → Double → Double) (a b : Number) :
    Except TooLargeForDouble Number :=
  match a, b with
  | int m, int n => .ok (int (onInts m n))
  | a, b => do
    let x ← a.toDouble
    let y ← b.toDouble
    return double (onDoubles x y)

def add : Number → Number → Except TooLargeForDouble Number :=
  combine (· + ·) Double.add

def sub : Number → Number → Except TooLargeForDouble Number :=
  combine (· - ·) Double.sub

def mul : Number → Number → Except TooLargeForDouble Number :=
  combine (· * ·) Double.mul

/-! ### Selection -/

def abs : Number → Number
  | int n => int n.natAbs
  | double x => double x.abs

/-- One, minus one or zero; the value that is not a number has no sign and gives zero. -/
def sign (x : Number) : Int :=
  if lt (int 0) x then 1 else if lt x (int 0) then -1 else 0

/-- The smaller of two numbers, the first of two equal ones. -/
def min (a b : Number) : Number :=
  if a.isNaN || b.isNaN then double .nan else if b.lt a then b else a

/-- The larger of two numbers, the first of two equal ones. -/
def max (a b : Number) : Number :=
  if a.isNaN || b.isNaN then double .nan else if a.lt b then b else a

/-- The number nearest to `x` between two bounds in order. -/
def clamp (x low high : Number) : Number :=
  max low (min x high)

/-- The point between two numbers at a fraction of the way. -/
def lerp (a b t : Number) : Except TooLargeForDouble Number := do
  let span ← b.sub a
  let step ← span.mul t
  a.add step

end Number

end Primitives
