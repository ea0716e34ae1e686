import Mathlib.Algebra.Order.Ring.Nat
import Primitives.Number.Decimal

/-!
# Rounding to the nearest double

Rounding a quotient depends on its value only, not on how numerator and denominator are written. A quotient
that is the magnitude of a double is rounded to itself. A rounded quotient is at least the greatest power of
two that the quotient reaches and at most about twice the quotient, so that quotients far beyond the greatest
double become infinite and small ones stay finite; below half a unit the result is zero.

## Main results

* `nearestUnits_mul_right`: rounding and common factors.
* `nearestUnits_of_hasPrecision`: magnitudes of doubles are kept.
* `two_pow_log2_le_nearestUnits`, `nearestUnits_le`: bounds of the result.
* `Double.ofUnits_units`, `Double.ofUnits_of_limit_le`, `Double.ofUnits_of_lt_half`: the same for doubles.
-/

namespace Primitives

variable {num den k units : Nat}

/-! ### Quotients -/

theorem roundHalfEven_mul_right (num den : Nat) (hk : 0 < k) :
    roundHalfEven (num * k) (den * k) = roundHalfEven num den := by
  have hfloor : num * k / (den * k) = num / den := Nat.mul_div_mul_right num den hk
  have hrest : 2 * (num * k % (den * k)) = 2 * (num % den) * k := by
    rw [Nat.mul_mod_mul_right, Nat.mul_assoc]
  have hlt : 2 * (num % den) * k < den * k ↔ 2 * (num % den) < den := Nat.mul_lt_mul_right hk
  have heq : 2 * (num % den) * k = den * k ↔ 2 * (num % den) = den := Nat.mul_left_inj hk.ne'
  simp only [roundHalfEven, hfloor, hrest, hlt, heq]

theorem roundHalfEven_mul_self (n : Nat) (hden : 0 < den) : roundHalfEven (n * den) den = n := by
  have hrest : 2 * (n * den % den) < den := by rwa [Nat.mul_mod_left]
  rw [roundHalfEven, if_pos (.inl hrest), Nat.mul_div_cancel n hden]

/-! ### Units -/

theorem nearestUnits_mul_right (num den : Nat) (hk : 0 < k) :
    nearestUnits (num * k) (den * k) = nearestUnits num den := by
  have hscale (s : Nat) : den * k * 2 ^ s = den * 2 ^ s * k := Nat.mul_right_comm ..
  simp only [nearestUnits, Nat.mul_div_mul_right num den hk, hscale, roundHalfEven_mul_right _ _ hk]

/-- The digits that rounding would drop from a number with enough precision are zeros. -/
theorem HasPrecision.dvd (h : HasPrecision units) : 2 ^ excessDigits units ∣ units := by
  obtain ⟨m, s, hm, rfl⟩ := h
  refine Nat.dvd_mul_left_of_dvd (Nat.pow_dvd_pow 2 ?_) m
  by_cases hzero : m * 2 ^ s = 0
  · simp [excessDigits, hzero]
  · have hlog : (m * 2 ^ s).log2 < precision + s := by
      rw [Nat.log2_lt hzero, Nat.pow_add]
      exact Nat.mul_lt_mul_of_pos_right hm (Nat.two_pow_pos s)
    simp only [excessDigits, precision] at hlog ⊢
    omega

/-- A quotient that is the magnitude of a double is rounded to itself. -/
theorem nearestUnits_of_hasPrecision (h : HasPrecision units) (hden : 0 < den) :
    nearestUnits (units * den) den = units := by
  obtain ⟨q, hq⟩ := h.dvd
  have hpos : 0 < den * 2 ^ excessDigits units := Nat.mul_pos hden (Nat.two_pow_pos _)
  have hnum : units * den = q * (den * 2 ^ excessDigits units) := by
    rw [Nat.mul_left_comm, Nat.mul_comm q, ← hq, Nat.mul_comm]
  rw [nearestUnits, Nat.mul_div_cancel units hden, hnum, roundHalfEven_mul_self q hpos, Nat.mul_comm q, ← hq]

/-- The power of two of the dropped digits is at most the number, unless nothing is dropped. -/
theorem two_pow_excessDigits_le (units : Nat) : 2 ^ excessDigits units ≤ units + 1 := by
  by_cases hzero : units = 0
  · simp [excessDigits, hzero]
  · have hpow : 2 ^ excessDigits units ≤ 2 ^ units.log2 := Nat.pow_le_pow_right (by decide) (Nat.sub_le _ _)
    have hlog := Nat.log2_self_le hzero
    omega

theorem nearestUnits_le (num den : Nat) : nearestUnits num den ≤ 2 * (num / den) + 1 := by
  have hexcess := two_pow_excessDigits_le (num / den)
  generalize hs : excessDigits (num / den) = s at hexcess
  have hround := roundHalfEven_le num (den * 2 ^ s)
  rw [← Nat.div_div_eq_div_mul] at hround
  have hfloor : num / den / 2 ^ s * 2 ^ s ≤ num / den := Nat.div_mul_le_self ..
  have hscaled : roundHalfEven num (den * 2 ^ s) * 2 ^ s ≤ (num / den / 2 ^ s + 1) * 2 ^ s :=
    Nat.mul_le_mul_right _ hround
  rw [Nat.add_mul, Nat.one_mul] at hscaled
  simp only [nearestUnits, hs]
  omega

/-- A rounded quotient reaches the powers of two that the quotient reaches. -/
theorem two_pow_log2_le_nearestUnits (h : num / den ≠ 0) :
    2 ^ (num / den).log2 ≤ nearestUnits num den := by
  have hlog := Nat.log2_self_le h
  have hle : excessDigits (num / den) ≤ (num / den).log2 := Nat.sub_le _ _
  simp only [nearestUnits]
  generalize excessDigits (num / den) = s at hle
  have hpow : 2 ^ (num / den).log2 = 2 ^ ((num / den).log2 - s) * 2 ^ s := by
    rw [← Nat.pow_add, Nat.sub_add_cancel hle]
  have hfloor : 2 ^ ((num / den).log2 - s) ≤ num / den / 2 ^ s := by
    rwa [Nat.le_div_iff_mul_le (Nat.two_pow_pos s), ← hpow]
  have hround := le_roundHalfEven num (den * 2 ^ s)
  rw [← Nat.div_div_eq_div_mul] at hround
  rw [hpow]
  exact Nat.mul_le_mul_right _ (hfloor.trans hround)

theorem nearestUnits_of_lt_half (h : 2 * num < den) : nearestUnits num den = 0 := by
  have hfloor : num / den = 0 := Nat.div_eq_of_lt (by omega)
  have hrest : 2 * (num % den) < den := by rwa [Nat.mod_eq_of_lt (by omega)]
  have hexcess : excessDigits 0 = 0 := by decide
  rw [nearestUnits, hfloor, hexcess, Nat.pow_zero, Nat.mul_one, Nat.mul_one, roundHalfEven, if_pos (.inl hrest),
    hfloor]

/-! ### Doubles -/

namespace Double

variable {negative : Bool}

theorem ofUnits_mul_right (negative : Bool) (num den : Nat) (hk : 0 < k) :
    ofUnits negative (num * k) (den * k) = ofUnits negative num den := by
  simp only [ofUnits, nearestUnits_mul_right num den hk]

theorem ofRatio_mul_right (negative : Bool) (num den : Nat) (hk : 0 < k) :
    ofRatio negative (num * k) (den * k) = ofRatio negative num den := by
  rw [ofRatio, Nat.mul_right_comm, ofUnits_mul_right negative _ _ hk, ofRatio]

/-- A quotient that is not rounded to the limit becomes a finite double of as many units. -/
theorem ofUnits_of_nearestUnits_lt (negative : Bool) (h : nearestUnits num den < unitLimit) :
    ∃ m : Magnitude, ofUnits negative num den = finite negative m ∧ m.units = nearestUnits num den := by
  rw [ofUnits, dif_pos h]
  exact ⟨_, rfl, rfl⟩

/-- A quotient that is the magnitude of a double becomes this double. -/
theorem ofUnits_units (negative : Bool) (m : Magnitude) (hden : 0 < den) :
    ofUnits negative (m.units * den) den = finite negative m := by
  have hround := nearestUnits_of_hasPrecision m.representable.1 hden
  have hlimit : nearestUnits (m.units * den) den < unitLimit := hround.trans_lt m.representable.2
  rw [ofUnits, dif_pos hlimit]
  congr

/-- Quotients from the first power of two above all doubles on become infinite. -/
theorem ofUnits_of_limit_le (negative : Bool) (hden : 0 < den) (h : unitLimit * den ≤ num) :
    ofUnits negative num den = infinite negative := by
  have hfloor : 2 ^ (unitScale + 1024) ≤ num / den := (Nat.le_div_iff_mul_le hden).2 h
  have hne : num / den ≠ 0 := ((Nat.two_pow_pos _).trans_le hfloor).ne'
  have hlog : unitScale + 1024 ≤ (num / den).log2 := (Nat.le_log2 hne).2 hfloor
  have hlimit : unitLimit ≤ nearestUnits num den :=
    (Nat.pow_le_pow_right (by decide) hlog).trans (two_pow_log2_le_nearestUnits hne)
  rw [ofUnits, dif_neg (Nat.not_lt.2 hlimit)]

/-- Quotients below half a unit become zero. -/
theorem ofUnits_of_lt_half (negative : Bool) (h : 2 * num < den) :
    ofUnits negative num den = zero negative := by
  have hround := nearestUnits_of_lt_half h
  rw [ofUnits, dif_pos (hround.trans_lt unitLimit_pos)]
  simp only [zero, hround]

theorem ofUnits_withSign (negative : Bool) (num den : Nat) :
    ofUnits negative num den = (ofUnits false num den).withSign negative := by
  unfold ofUnits
  split <;> rfl

end Double

end Primitives
