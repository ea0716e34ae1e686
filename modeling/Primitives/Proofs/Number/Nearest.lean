import Mathlib.Algebra.Order.Field.Basic
import Mathlib.Algebra.Order.Field.Rat
import Mathlib.Algebra.Ring.Parity
import Mathlib.Tactic.FieldSimp
import Mathlib.Tactic.Linarith
import Mathlib.Tactic.Positivity
import Mathlib.Tactic.Ring
import Primitives.Proofs.Number.Decimals

/-!
# Nearest doubles

A rounded quotient is the double nearest to the quotient: no other double is nearer, and if another one is as
near, the leading binary digits of the result form an even number. The quotients that become infinite are those
from the middle between the greatest double and `2 ^ 1024` on, and those that become zero reach at most the half
of the least positive double; both thresholds follow from the result being nearest.

## Main definitions

* `significand`: the number that the leading binary digits of a magnitude form.
* `Magnitude.toRat`: the rational number that a magnitude with a sign is.
* `Double.IsNearest`: doubles nearest to a rational number, ties to even.

## Main results

* `nearestUnits_nearest`: rounded quotients are nearest.
* `unitLimit_le_nearestUnits_iff`, `nearestUnits_eq_zero_iff`: the thresholds.
* `Double.isNearest_ofRatio`: the same for doubles.
-/

namespace Primitives

variable {den units w : Nat}

/-! ### Quotients -/

/-- The numerator is at most half a denominator away from the multiple that rounding takes, which is an even
multiple if it is half a denominator away. -/
theorem roundHalfEven_error (num : Nat) (hden : 0 < den) :
    2 * |(roundHalfEven num den : ℤ) * den - num| ≤ den ∧
      (2 * |(roundHalfEven num den : ℤ) * den - num| = den → Even (roundHalfEven num den)) := by
  have hlt := Nat.mod_lt num hden
  have hnum : (num : ℤ) = (num / den : Nat) * den + (num % den : Nat) := by
    exact_mod_cast (Nat.div_add_mod' num den).symm
  rw [roundHalfEven, hnum]
  generalize num / den = floor
  generalize num % den = rest at hlt
  split
  · next h =>
    have hdistance : |(floor : ℤ) * den - (floor * den + rest)| = rest := by
      rw [sub_add_cancel_left, abs_neg, Nat.abs_cast]
    rw [hdistance, Nat.even_iff]
    omega
  · next h =>
    have hdistance : |((floor + 1 : Nat) : ℤ) * den - (floor * den + rest)| = den - rest := by
      push_cast
      rw [add_mul, one_mul, add_sub_add_left_eq_sub, abs_of_nonneg (by omega)]
    rw [hdistance, Nat.even_iff]
    omega

/-- A rounded quotient is at most a half away from the quotient, and even if it is a half away. -/
theorem roundHalfEven_within (num : Nat) (hden : 0 < den) :
    |(roundHalfEven num den : ℚ) - num / den| ≤ 1 / 2 ∧
      (|(roundHalfEven num den : ℚ) - num / den| = 1 / 2 → Even (roundHalfEven num den)) := by
  obtain ⟨hle, heven⟩ := roundHalfEven_error num hden
  generalize roundHalfEven num den = r at hle heven
  have hpos : (0 : ℚ) < den := by exact_mod_cast hden
  have hdistance : |(r : ℚ) - num / den| = (|(r : ℤ) * den - num| : ℤ) / (den : ℚ) := by
    rw [sub_div' hpos.ne', abs_div, abs_of_pos hpos]
    push_cast
    rfl
  rw [hdistance, div_le_div_iff₀ hpos two_pos, div_eq_div_iff hpos.ne' two_ne_zero]
  constructor
  · rw [one_mul, mul_comm]
    exact_mod_cast hle
  · intro heq
    rw [one_mul, mul_comm] at heq
    exact heven (by exact_mod_cast heq)

/-- No natural number is nearer to a quotient than the rounded one, and another one is as near only if the
rounded one is even. -/
theorem roundHalfEven_nearest (num : Nat) (hden : 0 < den) (k : Nat) :
    |(roundHalfEven num den : ℚ) - num / den| ≤ |(k : ℚ) - num / den| ∧
      (k ≠ roundHalfEven num den → |(roundHalfEven num den : ℚ) - num / den| = |(k : ℚ) - num / den| →
        Even (roundHalfEven num den)) := by
  obtain ⟨hwithin, heven⟩ := roundHalfEven_within num hden
  generalize roundHalfEven num den = r at hwithin heven
  by_cases hk : k = r
  · subst hk
    exact ⟨le_rfl, fun h => absurd rfl h⟩
  · -- The other number is at least one away from the rounded one.
    have hone : (1 : ℚ) ≤ |(k : ℚ) - r| := by
      have hint : (1 : ℤ) ≤ |(k : ℤ) - r| := Int.one_le_abs (by omega)
      exact_mod_cast hint
    have htriangle : |(k : ℚ) - r| ≤ |(k : ℚ) - num / den| + |(r : ℚ) - num / den| := by
      rw [abs_sub_comm (r : ℚ)]
      exact abs_sub_le (k : ℚ) _ _
    exact ⟨by linarith, fun _ heq => heven (by linarith)⟩

/-! ### Units -/

/-- The number that the leading binary digits of a magnitude form. -/
def significand (units : Nat) : Nat :=
  units / 2 ^ excessDigits units

/-- A magnitude is a multiple of a power of two or lies below 52 more digits. -/
theorem HasPrecision.dvd_or_lt (h : HasPrecision w) (s : Nat) : 2 ^ s ∣ w ∨ 0 < s ∧ w < 2 ^ (52 + s) := by
  by_cases hs : s ≤ excessDigits w
  · exact .inl ((Nat.pow_dvd_pow 2 hs).trans h.dvd)
  · refine .inr ⟨by omega, Nat.lt_log2_self.trans_le (Nat.pow_le_pow_right (by decide) ?_)⟩
    simp only [excessDigits, precision] at hs
    omega

/-- A number with digits to drop has 53 digits in front of them. -/
theorem two_pow_le_of_excessDigits (h : 0 < excessDigits units) : 2 ^ (52 + excessDigits units) ≤ units := by
  have hne : units ≠ 0 := by
    rintro rfl
    exact absurd h (by decide)
  refine (Nat.pow_le_pow_right (by decide) ?_).trans (Nat.log2_self_le hne)
  simp only [excessDigits, precision] at h ⊢
  omega

/-- The digits that are kept are those of the result, unless a further one is carried, and then the result is
even. -/
theorem even_significand {r s : Nat} (hle : r ≤ 2 ^ 53) (hge : 0 < s → 2 ^ 52 ≤ r) (heven : Even r) :
    Even (significand (r * 2 ^ s)) := by
  by_cases hcarry : r = 2 ^ 53
  · have hpow : r * 2 ^ s = 2 ^ 52 * 2 ^ (s + 1) := by
      rw [hcarry, Nat.pow_succ]
      omega
    have hexcess : excessDigits (r * 2 ^ s) = s + 1 := by
      rw [excessDigits, hpow, ← Nat.pow_add, Nat.log2_two_pow, precision]
      omega
    rw [significand, hexcess, hpow, Nat.mul_div_cancel _ (Nat.two_pow_pos _)]
    decide
  · have hlt : r < 2 ^ 53 := by omega
    have hexcess : excessDigits (r * 2 ^ s) = s := by
      rcases Nat.eq_zero_or_pos s with rfl | hs
      · have hlog : r.log2 < 53 := by
          by_cases hr : r = 0
          · subst hr
            decide
          · exact (Nat.log2_lt hr).2 hlt
        rw [Nat.pow_zero, Nat.mul_one, excessDigits, precision]
        omega
      · have hlog : (r * 2 ^ s).log2 = 52 + s := by
          have hr := hge hs
          refine (Nat.log2_eq_iff (by positivity)).2 ⟨?_, ?_⟩
          · rw [Nat.pow_add]
            exact Nat.mul_le_mul_right _ hr
          · rw [Nat.add_right_comm, Nat.pow_add]
            exact Nat.mul_lt_mul_of_pos_right hlt (Nat.two_pow_pos s)
        rw [excessDigits, hlog, precision]
        omega
    rwa [significand, hexcess, Nat.mul_div_cancel _ (Nat.two_pow_pos s)]

/-- A rounded quotient drops digits of which 53 stand in front, and rounds the number of the others. -/
theorem exists_nearestUnits_eq (num den : Nat) : ∃ s, ∃ r ≤ 2 ^ 53, nearestUnits num den = r * 2 ^ s ∧
    r = roundHalfEven num (den * 2 ^ s) ∧ (0 < s → 2 ^ (52 + s) ≤ num / den ∧ 2 ^ 52 ≤ r) := by
  refine ⟨excessDigits (num / den), _, ?_, rfl, rfl, fun hs => ?_⟩
  · refine (roundHalfEven_le num _).trans ?_
    rw [← Nat.div_div_eq_div_mul, Nat.succ_le_iff, Nat.div_lt_iff_lt_mul (Nat.two_pow_pos _), ← Nat.pow_add]
    exact lt_two_pow_excessDigits (num / den)
  · have hquotient := two_pow_le_of_excessDigits hs
    refine ⟨hquotient, le_trans ?_ (le_roundHalfEven num _)⟩
    rwa [← Nat.div_div_eq_div_mul, Nat.le_div_iff_mul_le (Nat.two_pow_pos _), ← Nat.pow_add]

/-- No magnitude is nearer to a quotient than the rounded one, and another one is as near only if the leading
digits of the rounded one are even. -/
theorem nearestUnits_nearest (num : Nat) (hden : 0 < den) (hw : HasPrecision w) :
    |(nearestUnits num den : ℚ) - num / den| ≤ |(w : ℚ) - num / den| ∧
      (w ≠ nearestUnits num den → |(nearestUnits num den : ℚ) - num / den| = |(w : ℚ) - num / den| →
        Even (significand (nearestUnits num den))) := by
  obtain ⟨s, r, hle, hresult, hr, hdigits⟩ := exists_nearestUnits_eq num den
  have hscaled : 0 < den * 2 ^ s := Nat.mul_pos hden (Nat.two_pow_pos s)
  have hpos : (0 : ℚ) < 2 ^ s := by positivity
  -- Distances of multiples of the kept digit are those of their numbers, scaled.
  have hdistance : ∀ k : Nat, |((k * 2 ^ s : Nat) : ℚ) - num / den| =
      |(k : ℚ) - num / (den * 2 ^ s : Nat)| * 2 ^ s := by
    intro k
    have hscale : ((k * 2 ^ s : Nat) : ℚ) - num / den = (k - num / (den * 2 ^ s : Nat)) * 2 ^ s := by
      push_cast
      field_simp
    rw [hscale, abs_mul, abs_of_pos hpos]
  have hnearest (k : Nat) := roundHalfEven_nearest num hscaled k
  rw [← hr] at hnearest
  rw [hresult, hdistance]
  rcases hw.dvd_or_lt s with ⟨k, rfl⟩ | ⟨hs, hlt⟩
  · rw [Nat.mul_comm (2 ^ s), hdistance]
    obtain ⟨hle', heven⟩ := hnearest k
    refine ⟨mul_le_mul_of_nonneg_right hle' hpos.le, fun hne heq => ?_⟩
    refine even_significand hle (fun hs => (hdigits hs).2) (heven ?_ (mul_right_cancel₀ hpos.ne' heq))
    rintro rfl
    exact hne rfl
  · -- Such a number lies below the least number with as many digits as the quotient, which is no nearer.
    have hfloor : ((2 ^ 52 * 2 ^ s : Nat) : ℚ) ≤ num / den := by
      have hquotient := (hdigits hs).1
      rw [Nat.pow_add, Nat.le_div_iff_mul_le hden] at hquotient
      rw [le_div_iff₀ (by exact_mod_cast hden)]
      exact_mod_cast hquotient
    have hbelow : (w : ℚ) < (2 ^ 52 * 2 ^ s : Nat) := by
      rw [← Nat.pow_add]
      exact_mod_cast hlt
    have hstrict : |(r : ℚ) - num / (den * 2 ^ s : Nat)| * 2 ^ s < |(w : ℚ) - num / den| := by
      refine (mul_le_mul_of_nonneg_right (hnearest (2 ^ 52)).1 hpos.le).trans_lt ?_
      rw [← hdistance, abs_of_nonpos (by linarith), abs_of_nonpos (by linarith)]
      linarith
    exact ⟨hstrict.le, fun _ heq => absurd heq hstrict.ne⟩

/-- A number with a sign. -/
def signed (negative : Bool) (x : ℚ) : ℚ :=
  if negative then -x else x

theorem signed_div (negative : Bool) (x y : ℚ) : signed negative (x / y) = signed negative x / y := by
  cases negative <;> simp [signed, neg_div]

/-- Two signs are one. -/
theorem signed_signed (negative negative' : Bool) (x : ℚ) :
    signed negative (signed negative' x) = signed (negative ^^ negative') x := by
  cases negative <;> cases negative' <;> simp [signed]

/-- Distances do not change if both numbers get the same sign. -/
theorem abs_signed_sub (negative : Bool) (x y : ℚ) : |signed negative x - signed negative y| = |x - y| := by
  cases negative with
  | false => rfl
  | true => rw [signed, signed, if_pos rfl, if_pos rfl, neg_sub_neg, abs_sub_comm]

/-- A magnitude of either sign is no nearer than the rounded quotient. -/
theorem nearestUnits_nearest_signed (num : Nat) (hden : 0 < den) (hw : HasPrecision w) (negative : Bool) :
    |(nearestUnits num den : ℚ) - num / den| ≤ |signed negative w - num / den| ∧
      (signed negative w ≠ nearestUnits num den →
        |(nearestUnits num den : ℚ) - num / den| = |signed negative w - num / den| →
          Even (significand (nearestUnits num den))) := by
  obtain ⟨hle, heven⟩ := nearestUnits_nearest num hden hw
  cases negative with
  | false => exact ⟨hle, fun hne => heven (by simpa [signed] using hne)⟩
  | true =>
    -- With the other sign only a zero can be as near.
    have hzero : HasPrecision 0 := ⟨0, 0, by decide, rfl⟩
    obtain ⟨hle, heven⟩ := nearestUnits_nearest num hden hzero
    have hq : (0 : ℚ) ≤ num / den := by positivity
    have hdistance : |signed true w - num / den| = w + num / den := by
      rw [signed, if_pos rfl, ← neg_add', abs_neg, abs_of_nonneg (by positivity)]
    rw [hdistance]
    rw [Nat.cast_zero, zero_sub, abs_neg, abs_of_nonneg hq] at hle heven
    have hw : (0 : ℚ) ≤ w := Nat.cast_nonneg w
    refine ⟨by linarith, fun hne heq => ?_⟩
    have hw : (w : ℚ) = 0 := by linarith
    rw [signed, if_pos rfl, hw, neg_zero] at hne
    exact heven (by exact_mod_cast hne) (by linarith)

/-! ### Thresholds -/

/-- The magnitude of the greatest double. -/
def greatestUnits : Nat :=
  (2 ^ 53 - 1) * 2 ^ (unitScale + 971)

theorem hasPrecision_greatestUnits : HasPrecision greatestUnits := by
  refine ⟨2 ^ 53 - 1, unitScale + 971, by decide, ?_⟩
  rw [greatestUnits]

theorem not_even_significand_greatestUnits : ¬ Even (significand greatestUnits) := by
  decide +kernel

theorem unitLimit_eq : unitLimit = 2 ^ 53 * 2 ^ (unitScale + 971) := by
  rw [unitLimit, ← Nat.pow_add, Nat.add_left_comm]

theorem hasPrecision_unitLimit : HasPrecision unitLimit := by
  refine ⟨1, unitScale + 1024, by decide, ?_⟩
  rw [Nat.one_mul, unitLimit]

/-- Magnitudes below the limit do not exceed the greatest one. -/
theorem HasPrecision.le_greatestUnits (h : HasPrecision w) (hlt : w < unitLimit) : w ≤ greatestUnits := by
  have hsplit := h.dvd_or_lt (unitScale + 971)
  rw [unitLimit_eq] at hlt
  rw [Nat.pow_add 2 52] at hsplit
  rw [greatestUnits]
  generalize 2 ^ (unitScale + 971) = p at hsplit hlt
  rcases hsplit with ⟨k, rfl⟩ | ⟨-, hbelow⟩
  · rw [Nat.mul_comm] at hlt ⊢
    have hk := Nat.lt_of_mul_lt_mul_right hlt
    exact Nat.mul_le_mul_right p (Nat.le_sub_one_of_lt hk)
  · exact hbelow.le.trans (Nat.mul_le_mul_right p (by decide))

/-- The greatest magnitude and the limit are as far from the middle between them. -/
theorem cast_greatestUnits_add :
    (greatestUnits : ℚ) + unitLimit = 2 * (2 ^ (unitScale + 1024) - 2 ^ (unitScale + 970)) ∧
      (greatestUnits : ℚ) < unitLimit := by
  have hgreatest : (greatestUnits : ℚ) = (2 ^ 53 - 1) * 2 ^ (unitScale + 971) := by
    have hdigits : ((2 ^ 53 - 1 : Nat) : ℚ) = 2 ^ 53 - 1 := by norm_num
    rw [greatestUnits, Nat.cast_mul (2 ^ 53 - 1), Nat.cast_pow, Nat.cast_ofNat, hdigits]
  have hlimit : (unitLimit : ℚ) = 2 ^ 53 * 2 ^ (unitScale + 971) := by
    rw [unitLimit_eq, Nat.cast_mul, Nat.cast_pow, Nat.cast_pow, Nat.cast_ofNat]
  have hpower (k : Nat) : (2 : ℚ) ^ (unitScale + (970 + k)) = 2 ^ k * 2 ^ (unitScale + 970) := by
    rw [← Nat.add_assoc, pow_add, mul_comm]
  have hpos : (0 : ℚ) < 2 ^ (unitScale + 970) := pow_pos two_pos _
  rw [hgreatest, hlimit, hpower 1, hpower 54]
  generalize (2 : ℚ) ^ (unitScale + 970) = p at hpos
  constructor <;> linarith

/-- A quotient is rounded to the limit or beyond exactly from the middle between the greatest magnitude and the
limit on. -/
theorem unitLimit_le_nearestUnits_iff (num : Nat) (hden : 0 < den) :
    unitLimit ≤ nearestUnits num den ↔ (2 ^ (unitScale + 1024) - 2 ^ (unitScale + 970) : ℚ) ≤ num / den := by
  obtain ⟨hsum, hless⟩ := cast_greatestUnits_add
  generalize (2 ^ (unitScale + 1024) - 2 ^ (unitScale + 970) : ℚ) = middle at hsum
  have hgreatest := (nearestUnits_nearest num hden hasPrecision_greatestUnits).1
  obtain ⟨hlimit, heven⟩ := nearestUnits_nearest num hden hasPrecision_unitLimit
  have hprecision := hasPrecision_nearestUnits num den
  generalize nearestUnits num den = u at hgreatest hlimit heven hprecision
  generalize (num : ℚ) / den = q at hgreatest hlimit heven
  constructor
  · intro hle
    have hle : (unitLimit : ℚ) ≤ u := by exact_mod_cast hle
    by_contra hlt
    have hdistance : |(u : ℚ) - q| = u - q := abs_of_nonneg (by linarith)
    rcases abs_cases ((greatestUnits : ℚ) - q) with ⟨h, -⟩ | ⟨h, -⟩ <;> linarith
  · intro hle
    by_contra hlt
    have hbelow : (u : ℚ) ≤ greatestUnits := by
      exact_mod_cast hprecision.le_greatestUnits (Nat.not_le.1 hlt)
    have hdistance : |(u : ℚ) - q| = q - u := by
      rw [abs_sub_comm]
      exact abs_of_nonneg (by linarith)
    rcases abs_cases ((unitLimit : ℚ) - q) with ⟨h, -⟩ | ⟨h, -⟩
    · -- The quotient is the middle itself, and the greatest magnitude, which is not even, is as near.
      have hgreatest : (u : ℚ) = greatestUnits := by linarith
      have hgreatest : u = greatestUnits := by exact_mod_cast hgreatest
      refine not_even_significand_greatestUnits (hgreatest ▸ heven ?_ (by linarith))
      omega
    · linarith

/-- A quotient is rounded to zero exactly if it is at most a half. -/
theorem nearestUnits_eq_zero_iff (num : Nat) (hden : 0 < den) :
    nearestUnits num den = 0 ↔ (num : ℚ) / den ≤ 1 / 2 := by
  have hone : HasPrecision 1 := ⟨1, 0, by decide, rfl⟩
  have hzero : HasPrecision 0 := ⟨0, 0, by decide, rfl⟩
  have hleast := (nearestUnits_nearest num hden hone).1
  obtain ⟨hnearest, heven⟩ := nearestUnits_nearest num hden hzero
  have hq : (0 : ℚ) ≤ num / den := by positivity
  generalize nearestUnits num den = u at hleast hnearest heven
  generalize (num : ℚ) / den = q at hleast hnearest heven hq
  rw [Nat.cast_zero, zero_sub, abs_neg, abs_of_nonneg hq] at hnearest heven
  constructor
  · rintro rfl
    rw [Nat.cast_zero, zero_sub, abs_neg, abs_of_nonneg hq, Nat.cast_one] at hleast
    rcases abs_cases ((1 : ℚ) - q) with ⟨h, -⟩ | ⟨h, -⟩ <;> linarith
  · intro hle
    by_contra hne
    have hge : (1 : ℚ) ≤ u := by exact_mod_cast Nat.one_le_iff_ne_zero.2 hne
    rw [abs_of_nonneg (by linarith)] at hnearest heven
    have hone : (u : ℚ) = 1 := by linarith
    have hone : u = 1 := by exact_mod_cast hone
    subst hone
    exact absurd (heven (by decide) (by linarith)) (by decide)

/-! ### Doubles -/

/-- The rational number that a magnitude with a sign is. -/
def Magnitude.toRat (negative : Bool) (m : Magnitude) : ℚ :=
  signed negative (m.units / 2 ^ unitScale)

namespace Double

/-- A double is nearest to a rational number if no other double is nearer, and if its leading binary digits are
even wherever another one is as near. -/
def IsNearest (v : ℚ) : Double → Prop
  | finite negative m => ∀ (negative' : Bool) (m' : Magnitude),
      |m.toRat negative - v| ≤ |m'.toRat negative' - v| ∧
        (m'.toRat negative' ≠ m.toRat negative → |m.toRat negative - v| = |m'.toRat negative' - v| →
          Even (significand m.units))
  | infinite _ => False
  | nan => False

/-- A quotient counted in units. -/
theorem units_div (num den : Nat) : ((num * 2 ^ unitScale : Nat) : ℚ) / den = num / den * 2 ^ unitScale := by
  rw [Nat.cast_mul, Nat.cast_pow, Nat.cast_ofNat, mul_div_right_comm]

variable (negative : Bool) (hden : 0 < den)

include hden

/-- The magnitude nearest to a quotient, in units, is nearest to it as a rational number, with the same sign. -/
theorem isNearest_finite {num : Nat} {m : Magnitude} (hm : m.units = nearestUnits (num * 2 ^ unitScale) den) :
    (finite negative m).IsNearest (signed negative (num / den)) := by
  intro negative' m'
  have hscale : (0 : ℚ) < 2 ^ unitScale := pow_pos two_pos _
  have hquotient : (num : ℚ) / den = (num * 2 ^ unitScale : Nat) / den / 2 ^ unitScale := by
    rw [units_div, mul_div_cancel_right₀ _ hscale.ne']
  obtain ⟨hle, heven⟩ := nearestUnits_nearest_signed (num * 2 ^ unitScale) hden m'.representable.1
    (negative ^^ negative')
  rw [← hm] at hle heven
  rw [hquotient]
  generalize ((num * 2 ^ unitScale : Nat) : ℚ) / den = q at hle heven
  -- In units, and with the sign of the quotient taken from both sides, the distances are those of magnitudes.
  have hunits (x : ℚ) (other : Bool) : |signed other (x / 2 ^ unitScale) - signed negative (q / 2 ^ unitScale)| =
      |signed (negative ^^ other) x - q| / 2 ^ unitScale := by
    rw [← abs_signed_sub negative, signed_signed, signed_signed, Bool.xor_self, signed_div, signed_div,
      ← sub_div, abs_div, abs_of_pos hscale]
    rfl
  have hself : signed (negative ^^ negative) m.units = m.units := by
    rw [Bool.xor_self]
    rfl
  rw [Magnitude.toRat, Magnitude.toRat, hunits, hunits, hself]
  refine ⟨div_le_div_of_nonneg_right hle hscale.le, fun hne heq => heven (fun hsame => hne ?_) ?_⟩
  · rw [signed_div, signed_div, ← hsame, signed_signed, ← Bool.xor_assoc, Bool.xor_self, Bool.false_xor]
  · exact (div_left_inj' hscale.ne').1 heq

/-- A quotient becomes infinite from the middle between the greatest double and `2 ^ 1024` on, and the nearest
double otherwise, which is a zero exactly if the quotient is at most half of the least positive double. -/
theorem ofRatio_cases (num : Nat) :
    ((2 ^ 1024 - 2 ^ 970 : ℚ) ≤ num / den ∧ ofRatio negative num den = infinite negative) ∨
      ((num : ℚ) / den < 2 ^ 1024 - 2 ^ 970 ∧ ∃ m, ofRatio negative num den = finite negative m ∧
        (finite negative m).IsNearest (signed negative (num / den)) ∧
          (m.units = 0 ↔ (num : ℚ) / den ≤ 1 / 2 ^ 1075)) := by
  have hscale : (0 : ℚ) < 2 ^ unitScale := pow_pos two_pos _
  have hlimit := unitLimit_le_nearestUnits_iff (num * 2 ^ unitScale) hden
  have hzero := nearestUnits_eq_zero_iff (num * 2 ^ unitScale) hden
  rw [units_div, pow_add, pow_add, ← mul_sub, mul_comm ((2 : ℚ) ^ unitScale), mul_le_mul_iff_left₀ hscale] at hlimit
  rw [units_div, ← le_div_iff₀ hscale, div_div, ← pow_succ'] at hzero
  rw [ofRatio, ofUnits]
  by_cases hlt : nearestUnits (num * 2 ^ unitScale) den < unitLimit
  · rw [dif_pos hlt]
    refine .inr ⟨lt_of_not_ge fun hge => ?_, _, rfl, isNearest_finite negative hden rfl, hzero⟩
    exact absurd (hlimit.2 hge) (Nat.not_le.2 hlt)
  · rw [dif_neg hlt]
    exact .inl ⟨hlimit.1 (Nat.not_lt.1 hlt), rfl⟩

end Double

end Primitives
