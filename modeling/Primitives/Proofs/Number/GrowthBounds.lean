import Primitives.Proofs.Number.GuardedFunctions

/-!
# Bounds of growing functions

The growth of a fixed point number is at least one, so its reciprocal is at most one: exponentials do not exceed one at
zero or below, and neither does a power of a base from one on with such an exponent, since the logarithm of the base is
not negative. Hence none of these values exceeds all doubles, and the only overflow left on this part of the line is
that of an argument, an integer that no finite double is near. It is taken for an overflow of the value, although the
value would be zero or one, and breaks the bounds.

## Main definitions

* `Double.IsSmall`: finite doubles between minus one and one.
* `Number.InRange`: numbers that are doubles or are near a finite one.

## Main results

* `Number.hasDouble_iff`: the numbers with a nearest double.
* `Double.exp_le_one`, `Double.expm1_le_zero`, `Double.isSmall_pow`: the bounds for doubles.
* `Number.orOverflow_le_iff`: growing functions of numbers.
* `Number.growth_bounds_iff`: the bounds hold exactly for numbers in the range of doubles.
-/

namespace Primitives

open Number (int double le_iff le_iff_of_values finite_le_int_iff int_le_finite_iff)

/-! ### Growth in fixed point -/

namespace Fixed

theorem one_pos : 0 < one :=
  Nat.two_pow_pos _

theorem growthLimit_pos : 0 < growthLimit :=
  Nat.mul_pos (by decide) one_pos

theorem one_le_growth (x : Nat) : one ≤ growth x := by
  calc one ≤ expSeries (x % log2) := Nat.le_add_right ..
    _ ≤ growth x := Nat.le_mul_of_pos_right _ (Nat.two_pow_pos _)

theorem ofUnits_zero : ofUnits 0 = 0 :=
  Nat.zero_mul _

theorem sumTerms_zero (step : Nat → Nat → Nat) (divisor : Nat → Nat) (fuel n : Nat) :
    sumTerms step divisor fuel n 0 = 0 := by
  cases fuel <;> simp [sumTerms]

theorem growth_zero : growth 0 = one := by
  rw [growth, Nat.zero_mod, Nat.zero_div, Nat.pow_zero, Nat.mul_one, expSeries, sumTerms_zero, Nat.add_zero]

/-- The logarithm of a number from one on is not negative. -/
theorem logRatio_nonneg {num scale : Nat} (h : 2 ^ scale ≤ num) : 0 ≤ logRatio num (2 ^ scale) := by
  have hne : num ≠ 0 := ((Nat.two_pow_pos scale).trans_le h).ne'
  have hlog : scale ≤ num.log2 := (Nat.le_log2 hne).2 h
  have hdown : (-((num.log2 : Int) - scale)).toNat = 0 := by omega
  have hup : ((num.log2 : Int) - scale).toNat = num.log2 - scale := by omega
  -- The power of two brings the denominator to the leading digit of the numerator, and not beyond.
  have hfirst : 2 ^ scale * 2 ^ (num.log2 - scale) ≤ num := by
    rw [← Nat.pow_add, Nat.add_sub_cancel' hlog]
    exact Nat.log2_self_le hne
  rw [logRatio, Nat.log2_two_pow]
  simp only [hdown, hup, Nat.pow_zero, Nat.mul_one, if_pos hfirst]
  have hdigits : (0 : Int) ≤ num.log2 - scale := by omega
  exact Int.add_nonneg (Int.mul_nonneg hdigits (Int.natCast_nonneg _))
    (Int.mul_nonneg (by decide) (Int.natCast_nonneg _))

end Fixed

namespace Double

variable {a b : Double} {negative : Bool} {num den : Nat}

/-! ### Doubles between minus one and one -/

/-- A finite double between minus one and one. -/
def IsSmall (a : Double) : Prop :=
  ∃ (negative : Bool) (m : Magnitude), a = finite negative m ∧ m.units ≤ 2 ^ unitScale

theorem IsSmall.le_one (h : a.IsSmall) : (double a).Le (int 1) := by
  obtain ⟨negative, m, rfl, hunits⟩ := h
  rw [finite_le_int_iff, Int.one_mul]
  have hcast : ((2 ^ unitScale : Nat) : Int) = 2 ^ unitScale := Int.natCast_pow 2 unitScale
  cases negative <;> simp only [signedUnits_true, signedUnits_false] <;> omega

theorem IsSmall.withSign (h : a.IsSmall) (negative : Bool) : (a.withSign negative).IsSmall := by
  obtain ⟨-, m, rfl, hunits⟩ := h
  exact ⟨negative, m, rfl, hunits⟩

theorem isSmall_zero (negative : Bool) : (zero negative).IsSmall :=
  ⟨negative, _, rfl, Nat.zero_le _⟩

/-- A quotient of at most one is rounded to a double of at most one. -/
theorem isSmall_ofRatio (negative : Bool) (hden : 0 < den) (h : num ≤ den) : (ofRatio negative num den).IsSmall := by
  have hone : HasPrecision (2 ^ unitScale) := ⟨1, unitScale, by decide, (Nat.one_mul _).symm⟩
  have hunits : nearestUnits (num * 2 ^ unitScale) den ≤ 2 ^ unitScale :=
    nearestUnits_le_of_le hone hden (by rw [Nat.mul_comm]; exact Nat.mul_le_mul_left _ h)
  have hlimit : 2 ^ unitScale < unitLimit := by
    rw [unitLimit]
    exact Nat.pow_lt_pow_right (by decide) (by decide)
  obtain ⟨m, hm, hnearest⟩ := ofUnits_of_nearestUnits_lt negative (hunits.trans_lt hlimit)
  exact ⟨negative, m, hm, hnearest ▸ hunits⟩

/-- Reciprocals of growths are small. -/
theorem isSmall_ofGrowth (x : Nat) : (ofGrowth true x).IsSmall := by
  rw [ofGrowth, if_pos rfl, if_pos rfl]
  split
  · exact isSmall_zero false
  · exact isSmall_ofRatio false (Fixed.one_pos.trans_le (Fixed.one_le_growth x)) (Fixed.one_le_growth x)

theorem isSmall_one : (ofInt 1).IsSmall :=
  isSmall_ofRatio false Nat.one_pos le_rfl

/-- Rounded negative quotients are not above zero, even if they exceed all doubles. -/
theorem ofRatio_le_zero (num den : Nat) : (double (ofRatio true num den)).Le (int 0) := by
  rw [ofRatio, ofUnits]
  split
  · rw [finite_le_int_iff, signedUnits_true]
    omega
  · exact (le_iff_of_values rfl rfl).2 bot_le

theorem minusOne_le_zero : (double (ofInt (-1))).Le (int 0) := by
  rw [ofInt]
  exact ofRatio_le_zero _ _

/-! ### Arguments below zero and bases from one on -/

/-- A double that is not above zero is minus infinity, negative, or a zero. -/
theorem cases_of_le_zero (h : (double a).Le (int 0)) :
    a = infinite true ∨ ∃ negative m, a = finite negative m ∧ (negative = true ∨ m.units = 0) := by
  cases a with
  | finite negative m =>
    rw [finite_le_int_iff, Int.zero_mul] at h
    cases negative with
    | true => exact .inr ⟨true, m, rfl, .inl rfl⟩
    | false => exact .inr ⟨false, m, rfl, .inr (by rw [signedUnits_false] at h; omega)⟩
  | infinite negative =>
    cases negative with
    | true => exact .inl rfl
    | false => exact absurd (le_iff.1 h) (by decide)
  | nan => exact absurd (le_iff.1 h) (by decide)

/-- A double from one on is infinite or has at least the units of one. -/
theorem cases_of_one_le (h : (int 1).Le (double a)) :
    a = infinite false ∨ ∃ m, a = finite false m ∧ 2 ^ unitScale ≤ m.units := by
  cases a with
  | finite negative m =>
    have hcast : ((2 ^ unitScale : Nat) : Int) = 2 ^ unitScale := Int.natCast_pow 2 unitScale
    have hpos := Nat.two_pow_pos unitScale
    rw [int_le_finite_iff, Int.one_mul] at h
    cases negative with
    | true => exact absurd h (by rw [signedUnits_true]; omega)
    | false => exact .inr ⟨m, rfl, by rw [signedUnits_false] at h; omega⟩
  | infinite negative =>
    cases negative with
    | true => exact absurd (le_iff.1 h) (by decide)
    | false => exact .inl rfl
  | nan => exact absurd (le_iff.1 h) (by decide)

/-! ### Bounds for doubles -/

theorem exp_le_one (h : (double a).Le (int 0)) : (double a.exp).Le (int 1) := by
  suffices hsmall : a.exp.IsSmall from hsmall.le_one
  obtain rfl | ⟨negative, m, rfl, hside⟩ := cases_of_le_zero h
  · exact isSmall_zero false
  · cases negative with
    | true =>
      rw [exp]
      exact isSmall_ofGrowth _
    | false =>
      have hunits : m.units = 0 := hside.resolve_left Bool.false_ne_true
      rw [exp, hunits, Fixed.ofUnits_zero, ofGrowth, if_neg (Nat.not_le.2 Fixed.growthLimit_pos),
        if_neg Bool.false_ne_true, Fixed.growth_zero]
      exact isSmall_ofRatio false Fixed.one_pos le_rfl

theorem expm1_le_zero (h : (double a).Le (int 0)) : (double a.expm1).Le (int 0) := by
  obtain rfl | ⟨negative, m, rfl, hside⟩ := cases_of_le_zero h
  · simp only [expm1, if_true, minusOne_le_zero]
  · rw [expm1]
    dsimp only
    by_cases hunits : m.units = 0
    · rwa [if_pos hunits]
    · obtain rfl : negative = true := hside.resolve_right hunits
      rw [if_neg hunits, if_pos rfl]
      split
      · exact minusOne_le_zero
      · exact ofRatio_le_zero _ _

/-- The power of a base from one on to an exponent that is not positive is a reciprocal of a growth, or zero or one. -/
theorem isSmall_pow (ha : (int 1).Le (double a)) (hb : (double b).Le (int 0)) : (Double.pow a b).IsSmall := by
  rw [Double.pow.eq_def]
  dsimp only
  split
  · exact isSmall_one
  · next hplain =>
    obtain ⟨hzero, hone⟩ : b.isZero = false ∧ a.isOne = false := by simpa using hplain
    obtain rfl | ⟨negative, n, rfl, hside⟩ := cases_of_le_zero hb
    · obtain rfl | ⟨m, rfl, hm⟩ := cases_of_one_le ha
      · exact isSmall_zero _
      · have hunits : m.units ≠ 2 ^ unitScale := of_decide_eq_false hone
        have hlarge : 2 ^ unitScale < m.units := lt_of_le_of_ne hm hunits.symm
        simp only [if_neg hunits, decide_eq_true hlarge, bne_self_eq_false, Bool.false_eq_true, if_false]
        exact isSmall_zero _
    · have hn : n.units ≠ 0 := by simpa [isZero] using hzero
      obtain rfl : negative = true := hside.resolve_right hn
      obtain rfl | ⟨m, rfl, hm⟩ := cases_of_one_le ha
      · exact isSmall_zero _
      · have hm0 : m.units ≠ 0 := ((Nat.two_pow_pos unitScale).trans_le hm).ne'
        have hlogarithm : ¬ Fixed.logRatio m.units (2 ^ unitScale) < 0 := Int.not_lt.2 (Fixed.logRatio_nonneg hm)
        simp only [if_neg hm0, Bool.false_and, Bool.false_eq_true, if_false, powPositive, decide_eq_false hlogarithm,
          Bool.true_bne, Bool.not_false]
        exact (isSmall_ofGrowth _).withSign _

end Double

/-! ### Bounds for numbers -/

namespace Number

variable {x base exponent : Number} {n : ℤ}

/-- A double, or an integer that is nearer to a finite double than to `2 ^ 1024`. -/
def InRange : Number → Prop
  | int n => |n| < 2 ^ 1024 - 2 ^ 970
  | double _ => True

/-- The numbers that have a nearest double. -/
theorem hasDouble_iff (x : Number) : x.HasDouble ↔ x.InRange := by
  cases x with
  | double x => exact iff_of_true (hasDouble_double x) trivial
  | int n =>
    have hcast : ((n.natAbs : ℚ) / (1 : ℕ) < 2 ^ 1024 - 2 ^ 970) ↔ |n| < 2 ^ 1024 - 2 ^ 970 := by
      rw [Nat.cast_one, div_one, Nat.cast_natAbs]
      exact_mod_cast Iff.rfl
    rcases Double.ofRatio_cases (n < 0) Nat.one_pos n.natAbs with ⟨hlarge, hvalue⟩ | ⟨hsmall, m, hvalue, -⟩
    · refine iff_of_false ?_ (mt hcast.2 (not_lt.2 hlarge))
      rintro ⟨a, ha⟩
      rw [toDouble, Double.ofInt, hvalue] at ha
      cases ha
    · exact iff_of_true (hasDouble_of_ofInt hvalue) (hcast.1 hsmall)

/-- Rounding keeps the side of zero, one and minus one. -/
theorem le_toDouble {a : Double} (h : x.toDouble = .ok a) {c : ℤ} (hc : c.natAbs ≤ 1) :
    (x.Le (int c) ↔ (double a).Le (int c)) ∧ ((int c).Le x ↔ (int c).Le (double a)) := by
  obtain ⟨hlt, hgt, heqv⟩ := compare_toDouble h hc
  have hcomm (y : Number) : (int c).eqv y ↔ y.eqv (int c) := by
    rw [eqv_iff, eqv_iff, sameValue_comm]
  rw [le_iff, le_iff, le_iff, le_iff, hcomm, hcomm, hlt, hgt, heqv]
  exact ⟨Iff.rfl, Iff.rfl⟩

/-- Positive infinity is above all integers. -/
theorem not_infinite_le (c : ℤ) : ¬ (double (.infinite false)).Le (int c) := by
  rw [le_iff_of_values rfl rfl, WithBot.coe_le_coe, not_le]
  exact WithTop.coe_lt_top _

theorem not_hasDouble {fault : TooLargeForDouble} (h : x.toDouble = .error fault) : ¬ x.HasDouble :=
  fun ⟨_, ha⟩ => nomatch h.symm.trans ha

/-- A growing function keeps a bound below zero exactly for the numbers that can be rounded. -/
theorem orOverflow_le_iff {f : Double → Double} {bound : ℤ}
    (hf : ∀ a, (double a).Le (int 0) → (double (f a)).Le (int bound)) (hx : x.Le (int 0)) :
    (double (orOverflow f x)).Le (int bound) ↔ x.InRange := by
  rw [← hasDouble_iff, orOverflow]
  cases h : x.toDouble with
  | ok a => exact iff_of_true (hf a ((le_toDouble h (by decide)).1.1 hx)) ⟨a, h⟩
  | error fault => exact iff_of_false (not_infinite_le bound) (not_hasDouble h)

/-- Powers of a base from one on to an exponent that is not positive. -/
theorem exists_pow_le_one_iff (hbase : (int 1).Le base) (hexponent : exponent.Le (int 0)) :
    ∃ r, base.pow exponent = .ok r ∧ ((double r).Le (int 1) ↔ base.InRange ∧ exponent.InRange) := by
  -- The base is not negative, so an overflow of either argument becomes the positive infinity.
  have hpositive : (int 0).Le (int 1) := le_iff.2 (.inl (by decide +kernel))
  rw [← hasDouble_iff, ← hasDouble_iff, pow, applied₂, (hpositive.trans hbase).not_lt]
  cases hb : base.toDouble with
  | error fault => exact ⟨_, rfl, iff_of_false (not_infinite_le 1) fun h => not_hasDouble hb h.1⟩
  | ok a =>
    cases he : exponent.toDouble with
    | error fault => exact ⟨_, rfl, iff_of_false (not_infinite_le 1) fun h => not_hasDouble he h.2⟩
    | ok b =>
      have hsmall := Double.isSmall_pow ((le_toDouble hb (by decide)).2.1 hbase)
        ((le_toDouble he (by decide)).1.1 hexponent)
      exact ⟨_, rfl, iff_of_true hsmall.le_one ⟨⟨a, hb⟩, b, he⟩⟩

/-- **Exponentials and powers keep their bounds exactly in the range of doubles.** At zero and below, the exponential is
at most one, and the exponential less one is at most zero, if and only if the argument is a double or an integer below
`2 ^ 1024 - 2 ^ 970` in absolute value. Every base from one on has a power to every exponent that is not positive, and
this power is at most one if and only if neither of the two is an integer beyond. -/
theorem growth_bounds_iff (x base exponent : Number) :
    (x.Le (int 0) → ((double x.exp).Le (int 1) ↔ x.InRange) ∧ ((double x.expm1).Le (int 0) ↔ x.InRange)) ∧
      ((int 1).Le base → exponent.Le (int 0) →
        ∃ r, base.pow exponent = .ok r ∧ ((double r).Le (int 1) ↔ base.InRange ∧ exponent.InRange)) :=
  ⟨fun hx => ⟨orOverflow_le_iff (fun _ => Double.exp_le_one) hx, orOverflow_le_iff (fun _ => Double.expm1_le_zero) hx⟩,
    exists_pow_le_one_iff⟩

/-- An integer far below zero has an infinite exponential, and so has the zeroth power of an integer far above it. -/
theorem growth_bounds_iff_beyond :
    (double (exp (int (-10 ^ 300)))).Le (int 1) ∧ ¬ (double (exp (int (-10 ^ 400)))).Le (int 1) ∧
      ¬ (double (expm1 (int (-10 ^ 400)))).Le (int 0) ∧
      ∃ r, pow (int (10 ^ 400)) (int 0) = .ok r ∧ ¬ (double r).Le (int 1) := by
  have hinside : (int (-10 ^ 300)).InRange := by
    rw [InRange]
    decide +kernel
  have hbelow : ¬ (int (-10 ^ 400)).InRange := by
    rw [InRange]
    decide +kernel
  have habove : ¬ (int (10 ^ 400)).InRange := by
    rw [InRange]
    decide +kernel
  have hnear : (int (-10 ^ 300)).Le (int 0) := le_iff.2 (.inl (by decide +kernel))
  have hfar : (int (-10 ^ 400)).Le (int 0) := le_iff.2 (.inl (by decide +kernel))
  obtain ⟨hbounds, hpowers⟩ := growth_bounds_iff (int (-10 ^ 400)) (int (10 ^ 400)) (int 0)
  obtain ⟨hexp, hexpm1⟩ := hbounds hfar
  obtain ⟨r, hr, hpow⟩ := hpowers (le_iff.2 (.inl (by decide +kernel))) ⟨_, _, rfl, rfl, le_rfl⟩
  exact ⟨((growth_bounds_iff _ (int 1) (int 0)).1 hnear).1.2 hinside, mt hexp.1 hbelow, mt hexpm1.1 hbelow, r, hr,
    mt hpow.1 fun h => habove h.1⟩

end Number

end Primitives
