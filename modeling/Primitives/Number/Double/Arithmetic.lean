import Primitives.Number.Double

/-!
# Arithmetic of doubles

Each operation computes its exact result as a quotient of units and rounds once. Infinities and
zeros follow the rules of binary floating point: a sum of opposite infinities, a product of zero
and an infinity, and quotients of two zeros or two infinities are no number, and a sum that
cancels exactly is the positive zero.

## Main definitions

* `Double.add`, `Double.sub`, `Double.mul`, `Double.div`, `Double.sqrt`, `Double.remainder`.
* `Double.floor`, `Double.ceil`, `Double.trunc`, `Double.round`: integral doubles near a double.
-/

namespace Primitives.Double

def add (x y : Double) : Double :=
  match x, y with
  | nan, _ | _, nan => nan
  | infinite a, infinite b => if a = b then infinite a else nan
  | infinite a, finite .. => infinite a
  | finite .., infinite b => infinite b
  | finite a m, finite b n =>
    let sum := signedUnits a m.units + signedUnits b n.units
    if sum = 0 then zero (a && b) else ofSignedUnits sum

def sub (x y : Double) : Double :=
  x.add y.neg

def mul (x y : Double) : Double :=
  match x, y with
  | nan, _ | _, nan => nan
  | finite a m, finite b n => ofUnits (a != b) (m.units * n.units) (2 ^ unitScale)
  | infinite a, infinite b => infinite (a != b)
  | infinite a, finite b n | finite b n, infinite a =>
    if n.units = 0 then nan else infinite (a != b)

def div (x y : Double) : Double :=
  match x, y with
  | nan, _ | _, nan => nan
  | infinite _, infinite _ => nan
  | infinite a, finite b _ => infinite (a != b)
  | finite a _, infinite b => zero (a != b)
  | finite a m, finite b n =>
    if n.units = 0 then if m.units = 0 then nan else infinite (a != b)
    else ofRatio (a != b) m.units n.units

/-- The square root; negative numbers have none, and a zero is its own root. The exact root is
replaced by its floor and a half when it is not integral, which rounds the same way. -/
def sqrt (x : Double) : Double :=
  match x with
  | nan => nan
  | infinite negative => if negative then nan else x
  | finite negative m =>
    if m.units = 0 then x
    else if negative then nan
    else
      let square := m.units * 2 ^ unitScale
      let root := sqrtFloor square
      ofUnits false (2 * root + if root * root = square then 0 else 1) 2

/-- The remainder of a division whose quotient is cut towards zero, with the sign of `x`. Infinite
dividends and zero divisors have none. -/
def remainder (x y : Double) : Double :=
  match x, y with
  | nan, _ | _, nan => nan
  | infinite _, _ => nan
  | finite .., infinite _ => x
  | finite a m, finite _ n =>
    if n.units = 0 then nan else ofUnits a (m.units % n.units) 1

/-! ### Integral doubles -/

/-- The integer part of a magnitude. -/
def wholePart (units : Nat) : Nat :=
  units / 2 ^ unitScale

/-- The units that exceed the integer part. -/
def fractionUnits (units : Nat) : Nat :=
  units % 2 ^ unitScale

/-- Replaces a finite double by the integer that `choose` gives for its sign and units. -/
def toWhole (choose : Bool → Nat → Nat) : Double → Double
  | finite negative m => ofRatio negative (choose negative m.units) 1
  | x => x

/-- The whole part, one larger when units are left over and the sign asks for it. -/
def awayIf (away : Bool) (units : Nat) : Nat :=
  if away && fractionUnits units != 0 then wholePart units + 1 else wholePart units

/-- The greatest integer not above a double; a zero keeps the sign. -/
def floor (x : Double) : Double :=
  x.toWhole fun negative units => awayIf negative units

/-- The least integer not below a double; a zero keeps the sign. -/
def ceil (x : Double) : Double :=
  x.toWhole fun negative units => awayIf (!negative) units

/-- The integer part towards zero; a zero keeps the sign. -/
def trunc (x : Double) : Double :=
  x.toWhole fun _ units => wholePart units

/-- The nearest integer, halves going away from zero; a zero keeps the sign. -/
def round (x : Double) : Double :=
  x.toWhole fun _ units =>
    if 2 ^ unitScale ≤ 2 * fractionUnits units then wholePart units + 1 else wholePart units

end Primitives.Double
