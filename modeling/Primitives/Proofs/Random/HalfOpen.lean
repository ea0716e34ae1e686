import Primitives.Proofs.Number.Neighbours
import Primitives.Proofs.Outcomes
import Primitives.Proofs.Random.Fractions
import Primitives.Random.Stream

/-!
# Half-open ranges

A draw between two doubles goes a fraction of the way from the lower one to the upper one. Difference, product
and sum are rounded. The difference may be rounded up, but then it has 53 digits, and no fraction below one
reaches the last step; so the product does not exceed the exact difference, and the rounded sum stays between the
two doubles. Where it is the upper one, it is replaced by the neighbour below. That is all, as long as the
difference is finite: the difference of two doubles that are further apart becomes infinite, and with it the draw
leaves the range.

## Main results

* `nearestUnits_fraction_le`: a fraction of a rounded difference.
* `Draw.between_of_finite`, `Draw.between_of_infinite`: draws with a finite and with an infinite difference.
* `RandomStream.double_halfOpen_iff`: the ranges that draws do not leave.
-/

namespace Primitives

/-! ### Fractions of rounded numbers -/

/-- A number that is rounded up lies in the upper half of a step, and at least `2 ^ 52` steps from zero. -/
theorem exists_step_of_lt_nearestUnits {n : Nat} (hup : n < nearestUnits n 1) :
    ∃ s, 2 ^ s ∣ nearestUnits n 1 ∧ HasPrecision (nearestUnits n 1 - 2 ^ s) ∧ 2 ^ (52 + s) ≤ n ∧
      2 * nearestUnits n 1 ≤ 2 * n + 2 ^ s := by
  obtain ⟨s, r, hle, hresult, hr, hleading⟩ := exists_nearestUnits_eq n 1
  have herror := (roundHalfEven_error n (Nat.mul_pos Nat.one_pos (Nat.two_pow_pos s))).1
  have hproduct : ((r * 2 ^ s : Nat) : ℤ) = r * (2 ^ s : Nat) := Int.natCast_mul ..
  rw [← hr, Nat.one_mul, ← hproduct, ← hresult, abs_of_nonneg (by omega)] at herror
  have hs : 0 < s := by
    refine Nat.pos_of_ne_zero fun hzero => ?_
    rw [hzero, Nat.pow_zero] at herror
    omega
  have hfloor := (hleading hs).1
  rw [Nat.div_one] at hfloor
  refine ⟨s, hresult ▸ Nat.dvd_mul_left .., ?_, hfloor, by omega⟩
  rw [hresult, ← Nat.sub_one_mul]
  exact .of_le ((Nat.sub_le r 1).trans hle) s

/-- A fraction of a rounded number, rounded again, does not exceed the number. -/
theorem nearestUnits_fraction_le {digits : Nat} (n : Nat) (hdigits : digits < 2 ^ 53) :
    nearestUnits (nearestUnits n 1 * digits) (2 ^ 53) ≤ n := by
  have hden : 0 < 2 ^ 53 := Nat.two_pow_pos _
  by_cases hdown : nearestUnits n 1 ≤ n
  · refine le_trans ?_ hdown
    exact nearestUnits_le_of_le (hasPrecision_nearestUnits n 1) hden (Nat.mul_le_mul_left _ hdigits.le)
  · obtain ⟨s, hdvd, hlower, hfloor, hhalf⟩ := exists_step_of_lt_nearestUnits (Nat.not_le.1 hdown)
    generalize nearestUnits n 1 = top at hdown hdvd hlower hhalf
    -- The fraction falls short of the number by more than half a step, so it is rounded to a lower step.
    have hshort : 2 * (top * digits) < (top - 2 ^ s + top) * 2 ^ 53 := by
      have hmul : top * (digits + 1) ≤ top * 2 ^ 53 := Nat.mul_le_mul_left _ hdigits
      rw [Nat.mul_succ] at hmul
      rw [Nat.pow_add] at hfloor
      omega
    have hbelow := nearestUnits_lt_of_lt_middle hlower (by omega) hden hshort
    rcases (hasPrecision_nearestUnits (top * digits) (2 ^ 53)).dvd_or_lt s with hdvd' | ⟨-, hlt⟩
    · have hstep := Nat.le_of_dvd (Nat.sub_pos_of_lt hbelow) (Nat.dvd_sub hdvd hdvd')
      omega
    · omega

/-! ### Draws -/

open Double (signedUnits)

variable {a b : Bool} {l h m n span : Magnitude} {exact : Nat}

namespace Draw

/-- A fraction of a difference that was rounded to a double is a double that does not exceed the exact one. -/
theorem mul_fractionOf (hspan : span.units = nearestUnits exact 1) (u v : UInt32) :
    ∃ step : Magnitude, (Double.finite false span).mul (fractionOf u v) = .finite false step ∧
      step.units ≤ exact := by
  have hle : nearestUnits (span.units * digitsOf u v) (2 ^ precision) ≤ span.units :=
    nearestUnits_le_of_le span.representable.1 (Nat.two_pow_pos _)
      (Nat.mul_le_mul_left _ (digitsOf_lt u v).le)
  obtain ⟨step, hstep, hunits⟩ :=
    Double.ofUnits_of_nearestUnits_lt false (hle.trans_lt span.representable.2)
  refine ⟨step, ?_, ?_⟩
  · rw [fractionOf_eq, Double.mul, two_pow_unitScale, ← Nat.mul_assoc, Nat.mul_comm stepUnits, ← hstep]
    exact Double.ofUnits_mul_right false _ _ (Nat.two_pow_pos _)
  · rw [hunits, hspan]
    exact nearestUnits_fraction_le exact (digitsOf_lt u v)

/-- A draw between doubles. -/
theorem between_double (x y span fraction : Double) :
    between (.double x) (.double y) (.double span) fraction =
      .ok (.double (if (x.add (span.mul fraction)).eqv y then y.next x else x.add (span.mul fraction))) := by
  have hresult : between (.double x) (.double y) (.double span) fraction =
      if (x.add (span.mul fraction)).eqv y then .ok (.double (y.next x))
      else .ok (.double (x.add (span.mul fraction))) := rfl
  rw [hresult]
  split <;> rfl

/-- A draw with a finite difference stays in the range. -/
theorem between_of_finite (hlt : signedUnits a l.units < signedUnits b h.units)
    (hspan : span.units = nearestUnits (signedUnits b h.units - signedUnits a l.units).natAbs 1) (u v : UInt32) :
    ∃ c k, between (.double (.finite a l)) (.double (.finite b h)) (.double (.finite false span))
        (fractionOf u v) = .ok (.double (.finite c k)) ∧
      signedUnits a l.units ≤ signedUnits c k.units ∧ signedUnits c k.units < signedUnits b h.units := by
  obtain ⟨step, hstep, hle⟩ := mul_fractionOf hspan u v
  obtain ⟨c, k, hsum, hlow, hhigh⟩ : ∃ c k, (Double.finite a l).add (.finite false step) = .finite c k ∧
      signedUnits a l.units ≤ signedUnits c k.units ∧ signedUnits c k.units ≤ signedUnits b h.units := by
    refine Double.add_between ?_ ?_ <;> rw [Double.signedUnits_false] <;> omega
  rw [between_double, hstep, hsum]
  split
  · obtain ⟨d, j, hnext, hplace⟩ := Double.next_downward hlt
    exact ⟨d, j, by rw [hnext], hplace⟩
  · next hne =>
    refine ⟨c, k, rfl, hlow, lt_of_le_of_ne hhigh fun heq => hne ?_⟩
    simp [Double.eqv, placesEq, Double.place?, heq]

/-- A draw with an infinite difference gives no finite double. -/
theorem between_of_infinite (u v : UInt32) (c : Bool) (k : Magnitude) :
    between (.double (.finite a l)) (.double (.finite b h)) (.double (.infinite false)) (fractionOf u v) ≠
      .ok (.double (.finite c k)) := by
  rw [between_double, fractionOf_eq, Double.mul]
  split <;> simp [Double.add, Double.eqv, placesEq, Double.place?]

end Draw

/-- The difference of two doubles is its number of units, rounded. -/
theorem Double.sub_of_lt (hlt : signedUnits a l.units < signedUnits b h.units) :
    (finite b h).sub (finite a l) = ofUnits false (signedUnits b h.units - signedUnits a l.units).natAbs 1 := by
  have hsum : signedUnits b h.units + signedUnits (!a) l.units = signedUnits b h.units - signedUnits a l.units := by
    cases a <;> simp [sub_eq_add_neg]
  have hpos : 0 < signedUnits b h.units - signedUnits a l.units := sub_pos.2 hlt
  rw [sub, neg, add, hsum, if_neg hpos.ne', ofSignedUnits, decide_eq_false hpos.not_gt]

/-- The difference of two doubles is finite below the middle between the greatest double and `2 ^ 1024`. -/
theorem Double.span_lt_unitLimit_iff (hlt : l.toRat a < h.toRat b) :
    nearestUnits (signedUnits b h.units - signedUnits a l.units).natAbs 1 < unitLimit ↔
      h.toRat b - l.toRat a < 2 ^ 1024 - 2 ^ 970 := by
  have hpos : 0 < signedUnits b h.units - signedUnits a l.units := sub_pos.2 (toRat_lt_toRat_iff.1 hlt)
  have hscale : (0 : ℚ) < 2 ^ unitScale := pow_pos two_pos _
  rw [← Nat.not_le, unitLimit_le_nearestUnits_iff _ Nat.one_pos, not_le, Nat.cast_one, div_one, Nat.cast_natAbs,
    abs_of_pos hpos, Int.cast_sub, h.toRat_eq, l.toRat_eq, ← sub_div, div_lt_iff₀ hscale, sub_mul, pow_add, pow_add,
    mul_comm (2 ^ unitScale : ℚ), mul_comm (2 ^ unitScale : ℚ)]

namespace RandomStream

/-- The result of a draw between two doubles is that of a fraction of the way. -/
theorem double_of_lt (hlt : signedUnits a l.units < signedUnits b h.units) (stream : RandomStream) :
    ∃ u v, (stream.double (.double (.finite a l)) (.double (.finite b h))).1 =
      Draw.between (.double (.finite a l)) (.double (.finite b h))
        (.double ((Double.finite b h).sub (.finite a l))) (Draw.fractionOf u v) := by
  have heqv : (Number.double (.finite a l)).eqv (.double (.finite b h)) = false := by
    simpa [Number.eqv, Number.place?, placesEq, Double.place?] using hlt.ne
  rw [double, heqv]
  exact ⟨_, _, rfl⟩

/-- **Draws between two doubles stay in the half-open range, unless their difference is infinite.** Whatever the
stream gives, a draw between two doubles is a double from the lower one up to below the upper one exactly if their
difference lies below the middle between the greatest double and `2 ^ 1024`, from which on it is rounded to an
infinity. -/
theorem double_halfOpen_iff (hlt : l.toRat a < h.toRat b) (stream : RandomStream) :
    (∃ c k, (stream.double (.double (.finite a l)) (.double (.finite b h))).1 = .ok (.double (.finite c k)) ∧
      l.toRat a ≤ k.toRat c ∧ k.toRat c < h.toRat b) ↔ h.toRat b - l.toRat a < 2 ^ 1024 - 2 ^ 970 := by
  have hunits := Double.toRat_lt_toRat_iff.1 hlt
  obtain ⟨u, v, hdraw⟩ := stream.double_of_lt hunits
  rw [← Double.span_lt_unitLimit_iff hlt, hdraw, Double.sub_of_lt hunits]
  constructor
  · rintro ⟨c, k, hresult, -⟩
    by_contra hlarge
    rw [Double.ofUnits, dif_neg hlarge] at hresult
    exact Draw.between_of_infinite u v c k hresult
  · intro hlimit
    obtain ⟨span, hspan, hrounded⟩ := Double.ofUnits_of_nearestUnits_lt false hlimit
    obtain ⟨c, k, hresult, hlow, hhigh⟩ := Draw.between_of_finite hunits hrounded u v
    rw [hspan]
    exact ⟨c, k, hresult, Double.toRat_le_toRat_iff.2 hlow, Double.toRat_lt_toRat_iff.2 hhigh⟩

end RandomStream

/-- The magnitude of a power of two. -/
def Magnitude.twoPow (e : Nat) (he : e < 1024) : Magnitude where
  units := 2 ^ (unitScale + e)
  representable := ⟨⟨1, unitScale + e, by decide, (Nat.one_mul _).symm⟩,
    Nat.pow_lt_pow_right (by decide) (Nat.add_lt_add_left he _)⟩

theorem Magnitude.twoPow_toRat (a : Bool) (e : Nat) (he : e < 1024) : (twoPow e he).toRat a = signed a (2 ^ e) := by
  have hscale : (0 : ℚ) < 2 ^ unitScale := pow_pos two_pos _
  rw [toRat, twoPow, Nat.cast_pow, Nat.cast_ofNat, pow_add, mul_div_cancel_left₀ _ hscale.ne']

/-- A draw between `-1` and `1` stays in the range, and one between `-2 ^ 1023` and `2 ^ 1023` does not. -/
theorem RandomStream.double_halfOpen_iff_powers :
    (∃ c k, ((unseeded 42).double (.double (.finite true (.twoPow 0 (by decide))))
        (.double (.finite false (.twoPow 0 (by decide))))).1 = .ok (.double (.finite c k)) ∧
      (Magnitude.twoPow 0 (by decide)).toRat true ≤ k.toRat c ∧
      k.toRat c < (Magnitude.twoPow 0 (by decide)).toRat false) ∧
    ¬ ∃ c k, ((unseeded 42).double (.double (.finite true (.twoPow 1023 (by decide))))
        (.double (.finite false (.twoPow 1023 (by decide))))).1 = .ok (.double (.finite c k)) ∧
      (Magnitude.twoPow 1023 (by decide)).toRat true ≤ k.toRat c ∧
      k.toRat c < (Magnitude.twoPow 1023 (by decide)).toRat false := by
  have hlt (e : Nat) (he : e < 1024) : (Magnitude.twoPow e he).toRat true < (Magnitude.twoPow e he).toRat false := by
    have hpos : (0 : ℚ) < 2 ^ e := pow_pos two_pos e
    rw [Magnitude.twoPow_toRat, Magnitude.twoPow_toRat, signed, signed, if_pos rfl, if_neg Bool.false_ne_true]
    linarith
  have hspan (e : Nat) (he : e < 1024) :
      (Magnitude.twoPow e he).toRat false - (Magnitude.twoPow e he).toRat true = 2 ^ (e + 1) := by
    rw [Magnitude.twoPow_toRat, Magnitude.twoPow_toRat, signed, signed, if_pos rfl, if_neg Bool.false_ne_true,
      sub_neg_eq_add, pow_succ, mul_two]
  have hgap : (0 : ℚ) < 2 ^ 970 := pow_pos two_pos _
  refine ⟨(double_halfOpen_iff (hlt 0 _) _).2 ?_, fun hwithin => ?_⟩
  · have hpower : (2 : ℚ) ^ 1024 = 2 ^ 54 * 2 ^ 970 := by rw [← pow_add]
    have hone : (1 : ℚ) ≤ 2 ^ 970 := one_le_pow₀ one_le_two
    rw [hspan, hpower, zero_add, pow_one]
    generalize (2 : ℚ) ^ 970 = gap at hone
    linarith
  · have hlarge := (double_halfOpen_iff (hlt 1023 _) _).1 hwithin
    rw [hspan] at hlarge
    exact absurd hlarge (not_lt.2 (sub_le_self _ hgap.le))

end Primitives
