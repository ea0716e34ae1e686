import Primitives.Number.Rounding

/-!
# Double precision numbers

A finite double is an integer number of *units*, the smallest positive double `2 ^ (-1074)`: every
number of units below `2 ^ 53` occurs, and above that those with 53 leading binary digits, up to
`2 ^ 1024`, which is `2 ^ 2098` units. All arithmetic is therefore arithmetic of natural numbers
followed by one rounding to the nearest representable number of units.

## Main definitions

* `Representable`: the numbers of units that are the magnitude of a double.
* `Magnitude`, `Double`: magnitudes with their sign, the infinities and the value that is not a
  number.
* `nearestUnits`: the representable number nearest to a quotient, ties to even.
* `Double.ofUnits`, `Double.ofRatio`: rounding of a quotient, a result of `2 ^ 1024` or more
  becoming infinite.

## Main results

* `hasPrecision_nearestUnits`: a rounded quotient has at most 53 significant binary digits.
-/

namespace Primitives

/-! ### Magnitudes -/

/-- The number of significant binary digits. -/
abbrev precision : Nat := 53

/-- One is `2 ^ unitScale` units. -/
abbrev unitScale : Nat := 1074

/-- The first number of units that is too large: `2 ^ 1024`. -/
def unitLimit : Nat := 2 ^ (unitScale + 1024)

theorem unitLimit_pos : 0 < unitLimit :=
  Nat.two_pow_pos _

/-- The numbers `m * 2 ^ s` with `m` of at most 53 binary digits. -/
def HasPrecision (units : Nat) : Prop :=
  ∃ m s, m < 2 ^ precision ∧ units = m * 2 ^ s

/-- The numbers of units that are the magnitude of a finite double. -/
def Representable (units : Nat) : Prop :=
  HasPrecision units ∧ units < unitLimit

/-- The magnitude of a finite double, counted in units. -/
structure Magnitude where
  units : Nat
  representable : Representable units
deriving DecidableEq

/-- A double: a magnitude with a sign, an infinity, or no number. -/
inductive Double where
  | finite (negative : Bool) (magnitude : Magnitude)
  | infinite (negative : Bool)
  | nan
deriving DecidableEq

/-! ### Rounding -/

/-- The number of binary digits to drop from `units` so that 53 remain. -/
def excessDigits (units : Nat) : Nat :=
  units.log2 - (precision - 1)

/-- The number of units with 53 significant digits that is nearest to `num / den`, a tie going to
the neighbour with an even last digit. -/
def nearestUnits (num den : Nat) : Nat :=
  let s := excessDigits (num / den)
  roundHalfEven num (den * 2 ^ s) * 2 ^ s

/-- A number of at most 53 digits, or `2 ^ 53` itself, with zeros behind it. -/
theorem HasPrecision.of_le {r : Nat} (h : r ≤ 2 ^ precision) (s : Nat) : HasPrecision (r * 2 ^ s) := by
  by_cases hlt : r < 2 ^ precision
  · exact ⟨r, s, hlt, rfl⟩
  · have heq : r = 2 ^ precision := by omega
    refine ⟨2 ^ 52, s + 1, by decide, ?_⟩
    rw [heq, Nat.pow_succ 2 s, Nat.mul_comm (2 ^ s) 2, ← Nat.mul_assoc]
    rfl

/-- The digits that are not to be dropped are at most 53. -/
theorem lt_two_pow_excessDigits (units : Nat) : units < 2 ^ (precision + excessDigits units) := by
  refine Nat.lt_of_lt_of_le Nat.lt_log2_self (Nat.pow_le_pow_right (by decide) ?_)
  simp only [excessDigits, precision]
  omega

theorem hasPrecision_nearestUnits (num den : Nat) : HasPrecision (nearestUnits num den) := by
  have hquotient := lt_two_pow_excessDigits (num / den)
  simp only [nearestUnits]
  generalize excessDigits (num / den) = s at hquotient
  have hfloor : num / (den * 2 ^ s) < 2 ^ precision := by
    rwa [← Nat.div_div_eq_div_mul, Nat.div_lt_iff_lt_mul (Nat.two_pow_pos s), ← Nat.pow_add]
  exact .of_le (Nat.le_trans (roundHalfEven_le num (den * 2 ^ s)) hfloor) s

namespace Double

/-- A zero with a sign. -/
def zero (negative : Bool) : Double :=
  .finite negative ⟨0, ⟨0, 0, by decide, by decide⟩, unitLimit_pos⟩

/-- The double nearest to `num / den` units with a sign. -/
def ofUnits (negative : Bool) (num den : Nat) : Double :=
  if h : nearestUnits num den < unitLimit then
    .finite negative ⟨nearestUnits num den, hasPrecision_nearestUnits num den, h⟩
  else .infinite negative

/-- The double nearest to `num / den` with a sign. -/
def ofRatio (negative : Bool) (num den : Nat) : Double :=
  ofUnits negative (num * 2 ^ unitScale) den

/-- The double nearest to an integral number of units; no units are the positive zero. -/
def ofSignedUnits (n : Int) : Double :=
  ofUnits (n < 0) n.natAbs 1

/-- The double nearest to an integer. -/
def ofInt (n : Int) : Double :=
  ofRatio (n < 0) n.natAbs 1

/-- The number of units of a magnitude with a sign. -/
def signedUnits (negative : Bool) (units : Nat) : Int :=
  if negative then -(units : Int) else units

@[simp] theorem signedUnits_false (units : Nat) : signedUnits false units = units :=
  rfl

@[simp] theorem signedUnits_true (units : Nat) : signedUnits true units = -(units : Int) :=
  rfl

def isNaN : Double → Bool
  | nan => true
  | _ => false

def isInfinite : Double → Bool
  | infinite _ => true
  | _ => false

def isFinite : Double → Bool
  | finite .. => true
  | _ => false

/-- The sign bit; the value that is not a number has none. -/
def isNegative : Double → Bool
  | finite negative _ => negative
  | infinite negative => negative
  | nan => false

/-- Whether a double is a zero of either sign. -/
def isZero : Double → Bool
  | finite _ magnitude => magnitude.units = 0
  | _ => false

/-- The double with its sign replaced. -/
def withSign (negative : Bool) : Double → Double
  | finite _ magnitude => finite negative magnitude
  | infinite _ => infinite negative
  | nan => nan

def neg : Double → Double
  | finite negative magnitude => finite (!negative) magnitude
  | infinite negative => infinite (!negative)
  | nan => nan

def abs (x : Double) : Double :=
  x.withSign false

end Double

end Primitives
