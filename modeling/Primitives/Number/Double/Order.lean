import Primitives.Number.Double

/-!
# The order of doubles

Every double that is a number has a *place* on the line of units with two ends. Comparisons of
doubles, and of doubles with integers of any size, compare places and are therefore exact; the two
zeros share a place, and the value that is not a number has none.

## Main definitions

* `Place`, `Place.lt`: the line of units with its ends.
* `Double.place?`: the place of a double.
* `Double.next`: the neighbour of a double in the direction of another one.
-/

namespace Primitives

/-- A place on the line of units, with an end on either side. -/
inductive Place where
  | bottom
  | units (n : Int)
  | top
deriving DecidableEq

namespace Place

/-- Whether one place lies strictly before another. -/
def lt : Place → Place → Bool
  | bottom, bottom => false
  | bottom, _ => true
  | units m, units n => m < n
  | units _, top => true
  | _, _ => false

/-- The place of an integer. -/
def ofInt (n : Int) : Place :=
  units (n * 2 ^ unitScale)

end Place

/-- Whether two values with places are in strict order; false without a place. -/
def placesLt (a b : Option Place) : Bool :=
  match a, b with
  | some p, some q => p.lt q
  | _, _ => false

/-- Whether two values share a place; false without a place. -/
def placesEq (a b : Option Place) : Bool :=
  match a, b with
  | some p, some q => p == q
  | _, _ => false

namespace Double

/-- The place of a double, none for the value that is not a number. -/
def place? : Double → Option Place
  | finite negative magnitude => some (.units (signedUnits negative magnitude.units))
  | infinite negative => some (if negative then .bottom else .top)
  | nan => none

def lt (x y : Double) : Bool :=
  placesLt x.place? y.place?

/-- Whether two doubles are numbers of equal value. -/
def eqv (x y : Double) : Bool :=
  placesEq x.place? y.place?

/-! ### Neighbours -/

/-- The distance from a magnitude to the next larger one, in units. -/
def gapAbove (units : Nat) : Nat :=
  2 ^ excessDigits units

/-- The distance from a positive magnitude to the next smaller one, in units. -/
def gapBelow (units : Nat) : Nat :=
  2 ^ excessDigits (units - 1)

/-- The neighbour of `x` in the direction of `y`, and `y` itself when the two are equal. -/
def next (x y : Double) : Double :=
  match x, y with
  | nan, _ | _, nan => nan
  | _, _ =>
    if x.eqv y then y
    else
      let upward := x.lt y
      match x with
      | finite negative magnitude =>
        if magnitude.units = 0 then ofUnits (!upward) 1 1
        else if upward = negative then
          ofUnits negative (magnitude.units - gapBelow magnitude.units) 1
        else ofUnits negative (magnitude.units + gapAbove magnitude.units) 1
      | infinite negative => ofUnits negative (unitLimit - gapBelow unitLimit) 1
      | nan => nan

end Double

end Primitives
