import Primitives.Proofs.Number.Nearest
import Primitives.Random.Draw

/-!
# Fractions

The fraction that two words give has 53 binary digits, which two words determine, and so is a double without any
rounding. It reaches zero and stays below one.

## Main definitions

* `Draw.digitsOf`, `Draw.stepUnits`: the digits of a fraction, as a number, and what they count.

## Main results

* `Draw.fractionOf_eq`: the units of a fraction.
* `Draw.fractionOf_toRat`: a fraction as a rational number.
-/

namespace Primitives.Draw

/-- The digits of the fraction that two words give: the upper 27 bits of one and the upper 26 of the other. -/
def digitsOf (u v : UInt32) : Nat :=
  u.toNat / 2 ^ 5 * 2 ^ 26 + v.toNat / 2 ^ 6

theorem digitsOf_lt (u v : UInt32) : digitsOf u v < 2 ^ precision := by
  have hu : u.toNat < 2 ^ 32 := u.toNat_lt
  have hv : v.toNat < 2 ^ 32 := v.toNat_lt
  rw [digitsOf, precision]
  omega

/-- One is `2 ^ 53` steps of a fraction, each of as many units. -/
def stepUnits : Nat :=
  2 ^ (unitScale - precision)

theorem two_pow_unitScale : 2 ^ unitScale = stepUnits * 2 ^ precision := by
  rw [stepUnits, ← Nat.pow_add, Nat.sub_add_cancel (by decide)]

theorem representable_steps {digits : Nat} (h : digits < 2 ^ precision) : Representable (digits * stepUnits) := by
  refine ⟨⟨digits, _, h, rfl⟩, ?_⟩
  have hone : 2 ^ unitScale < unitLimit := Nat.pow_lt_pow_right (by decide) (by decide)
  refine (Nat.mul_le_mul_right stepUnits h.le).trans_lt ?_
  rwa [Nat.mul_comm, ← two_pow_unitScale]

/-- Fractions are doubles without rounding. -/
theorem fractionOf_eq (u v : UInt32) :
    fractionOf u v = .finite false ⟨digitsOf u v * stepUnits, representable_steps (digitsOf_lt u v)⟩ := by
  have hdigits : (u >>> 5).toNat * 2 ^ 26 + (v >>> 6).toNat = digitsOf u v := by
    rw [digitsOf, UInt32.toNat_shiftRight, UInt32.toNat_shiftRight, Nat.shiftRight_eq_div_pow,
      Nat.shiftRight_eq_div_pow]
    rfl
  rw [fractionOf, hdigits, Double.ofRatio, two_pow_unitScale, ← Nat.mul_assoc]
  exact Double.ofUnits_units false ⟨_, representable_steps (digitsOf_lt u v)⟩ (Nat.two_pow_pos 53)

/-- A fraction is the quotient of its digits by `2 ^ 53`, from zero up to below one. -/
theorem fractionOf_toRat (u v : UInt32) : ∃ m : Magnitude, fractionOf u v = .finite false m ∧
    m.toRat false = digitsOf u v / 2 ^ 53 ∧ 0 ≤ m.toRat false ∧ m.toRat false < 1 := by
  have hlt : (digitsOf u v : ℚ) < 2 ^ 53 := by exact_mod_cast digitsOf_lt u v
  have hstep : (stepUnits : ℚ) ≠ 0 := Nat.cast_ne_zero.2 (Nat.two_pow_pos _).ne'
  have hscale : (2 : ℚ) ^ unitScale = stepUnits * 2 ^ 53 := by
    have hcast := congrArg (Nat.cast : Nat → ℚ) two_pow_unitScale
    rwa [Nat.cast_mul, Nat.cast_pow, Nat.cast_pow, Nat.cast_ofNat] at hcast
  have hvalue : Magnitude.toRat false ⟨digitsOf u v * stepUnits, representable_steps (digitsOf_lt u v)⟩ =
      digitsOf u v / 2 ^ 53 := by
    rw [Magnitude.toRat, signed, if_neg Bool.false_ne_true, Nat.cast_mul, hscale, mul_comm (digitsOf u v : ℚ),
      mul_div_mul_left _ _ hstep]
  refine ⟨_, fractionOf_eq u v, hvalue, ?_, ?_⟩
  · rw [hvalue]
    exact div_nonneg (Nat.cast_nonneg _) (pow_nonneg two_pos.le 53)
  · rwa [hvalue, div_lt_one (pow_pos two_pos 53)]

end Primitives.Draw
