import Primitives.Number.Double

/-!
# Cube roots and lengths

## Main definitions

* `Double.cbrt`: the cube root, with the sign of its argument.
* `Double.hypot`: the length of the vector `(x, y)`.
-/

namespace Primitives.Double

/-- The cube root: `n` units have a root of `∛(n * 2 ^ 2148)` units. -/
def cbrt (x : Double) : Double :=
  match x with
  | finite negative m =>
    if m.units = 0 then x
    else
      let cube := m.units * 2 ^ (2 * unitScale)
      let root := cbrtFloor cube
      ofUnits negative (2 * root + if root ^ 3 = cube then 0 else 1) 2
  | x => x

/-- The length of a vector, infinite if a coordinate is. The exact root is replaced by its floor and
a half when it is not integral. -/
def hypot (x y : Double) : Double :=
  match x, y with
  | infinite _, _ | _, infinite _ => infinite false
  | nan, _ | _, nan => nan
  | finite _ m, finite _ n =>
    let square := (m.units * m.units + n.units * n.units) * 4 ^ precision
    let root := sqrtFloor square
    ofUnits false (2 * root + if root * root = square then 0 else 1) (2 * 2 ^ precision)

end Primitives.Double
