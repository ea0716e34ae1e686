import Mathlib.Data.Nat.Log
import Primitives.Number.Double.Arithmetic
import Primitives.Number.Double.Order
import Primitives.Proofs.Number.Nearest

/-!
# Neighbours and rounding between doubles

The gaps of a magnitude lead to the next magnitudes on either side: these have enough precision, and no other
magnitude lies between. Rounding never passes a magnitude, since the magnitude itself would be nearer, so a sum
that lies between two doubles is rounded to a double between them.

## Main results

* `nearestUnits_le_of_le`, `le_nearestUnits_of_le`: rounding on one side of a magnitude.
* `HasPrecision.add_gapAbove_le`, `HasPrecision.le_sub_gapBelow`: nothing lies in a gap.
* `Double.add_between`: rounded sums between two doubles.
* `Double.next_downward`: the neighbour below a double.
-/

namespace Primitives

open Double (gapAbove gapBelow)

variable {num den units w : Nat}

/-! ### Rounding on one side of a magnitude -/

theorem nearestUnits_le_of_le (hw : HasPrecision w) (hden : 0 < den) (h : num ≤ w * den) :
    nearestUnits num den ≤ w := by
  have hpos : (0 : ℚ) < den := Nat.cast_pos.2 hden
  have hquotient : (num : ℚ) / den ≤ w := by
    rw [div_le_iff₀ hpos]
    exact_mod_cast h
  have hnearest := (nearestUnits_nearest num hden hw).1
  rw [abs_of_nonneg (sub_nonneg.2 hquotient)] at hnearest
  have hle := (le_abs_self _).trans hnearest
  exact_mod_cast (sub_le_sub_iff_right _).1 hle

theorem le_nearestUnits_of_le (hw : HasPrecision w) (hden : 0 < den) (h : w * den ≤ num) :
    w ≤ nearestUnits num den := by
  have hpos : (0 : ℚ) < den := Nat.cast_pos.2 hden
  have hquotient : (w : ℚ) ≤ num / den := by
    rw [le_div_iff₀ hpos]
    exact_mod_cast h
  have hnearest := (nearestUnits_nearest num hden hw).1
  rw [abs_sub_comm, abs_sub_comm (w : ℚ), abs_of_nonneg (sub_nonneg.2 hquotient)] at hnearest
  have hle := (le_abs_self _).trans hnearest
  exact_mod_cast (sub_le_sub_iff_left _).1 hle

/-- A quotient below the middle between a magnitude and a greater number is rounded to less than that number. -/
theorem nearestUnits_lt_of_lt_middle {top : Nat} (hw : HasPrecision w) (hlt : w < top) (hden : 0 < den)
    (h : 2 * num < (w + top) * den) : nearestUnits num den < top := by
  have hpos : (0 : ℚ) < den := Nat.cast_pos.2 hden
  have hmiddle : 2 * ((num : ℚ) / den) < w + top := by
    rw [mul_div_assoc', div_lt_iff₀ hpos]
    exact_mod_cast h
  have hnearest := (nearestUnits_nearest num hden hw).1
  by_contra hge
  have hge : (top : ℚ) ≤ nearestUnits num den := Nat.cast_le.2 (Nat.not_lt.1 hge)
  have hlt : (w : ℚ) < top := Nat.cast_lt.2 hlt
  have hdistance := (le_abs_self _).trans hnearest
  rcases abs_cases ((w : ℚ) - num / den) with ⟨h, -⟩ | ⟨h, -⟩ <;> linarith

/-! ### Gaps -/

namespace HasPrecision

/-- A magnitude is a multiple of the gap below it. -/
theorem gapBelow_dvd (h : HasPrecision units) : gapBelow units ∣ units := by
  refine (Nat.pow_dvd_pow 2 ?_).trans h.dvd
  rw [excessDigits, excessDigits, Nat.log2_eq_log_two, Nat.log2_eq_log_two]
  exact Nat.sub_le_sub_right (Nat.log_mono_right (Nat.sub_le _ _)) _

/-- The magnitude a gap above. -/
theorem add_gapAbove (h : HasPrecision units) : HasPrecision (units + gapAbove units) := by
  have hlt := lt_two_pow_excessDigits units
  obtain ⟨k, hk⟩ := h.dvd
  rw [gapAbove]
  generalize excessDigits units = s at hlt hk
  subst hk
  rw [Nat.pow_add, Nat.mul_comm] at hlt
  rw [← Nat.mul_succ, Nat.mul_comm]
  exact .of_le (Nat.lt_of_mul_lt_mul_right hlt) s

/-- The magnitude a gap below. -/
theorem sub_gapBelow (h : HasPrecision units) : HasPrecision (units - gapBelow units) := by
  have hlt := lt_two_pow_excessDigits (units - 1)
  obtain ⟨k, hk⟩ := h.gapBelow_dvd
  rw [gapBelow] at hk ⊢
  generalize excessDigits (units - 1) = s at hlt hk
  subst hk
  have hle : k * 2 ^ s ≤ 2 ^ precision * 2 ^ s := by
    rw [← Nat.pow_add, Nat.mul_comm]
    omega
  rw [← Nat.mul_sub_one, Nat.mul_comm]
  exact .of_le ((Nat.sub_le k 1).trans (Nat.le_of_mul_le_mul_right hle (Nat.two_pow_pos s))) s

/-- Greater magnitudes are at least a gap above. -/
theorem add_gapAbove_le (h : HasPrecision units) (hw : HasPrecision w) (hlt : units < w) :
    units + gapAbove units ≤ w := by
  rcases hw.dvd_or_lt (excessDigits units) with hdvd | ⟨hs, hbelow⟩
  · have hgap := Nat.le_of_dvd (Nat.sub_pos_of_lt hlt) (Nat.dvd_sub hdvd h.dvd)
    rw [gapAbove]
    omega
  · have hdigits := two_pow_le_of_excessDigits hs
    omega

/-- Smaller magnitudes are at least a gap below. -/
theorem le_sub_gapBelow (h : HasPrecision units) (hw : HasPrecision w) (hlt : w < units) :
    w ≤ units - gapBelow units := by
  -- The gap divides the magnitude and every multiple of it, so it fits between the two.
  have hfits {v : Nat} (hdvd : gapBelow units ∣ v) (hv : v < units) : v + gapBelow units ≤ units := by
    have hgap := Nat.le_of_dvd (Nat.sub_pos_of_lt hv) (Nat.dvd_sub h.gapBelow_dvd hdvd)
    omega
  rcases hw.dvd_or_lt (excessDigits (units - 1)) with hdvd | ⟨hs, hbelow⟩
  · have hgap := hfits hdvd hlt
    omega
  · have hdigits := two_pow_le_of_excessDigits hs
    have hgap := hfits (Nat.pow_dvd_pow 2 (Nat.le_add_left _ 52)) (v := 2 ^ (52 + excessDigits (units - 1))) (by omega)
    omega

end HasPrecision

/-! ### Doubles -/

theorem Magnitude.toRat_eq (negative : Bool) (m : Magnitude) :
    m.toRat negative = (Double.signedUnits negative m.units : ℚ) / 2 ^ unitScale := by
  cases negative with
  | false => rfl
  | true => rw [toRat, signed, if_pos rfl, Double.signedUnits_true, Int.cast_neg, Int.cast_natCast, neg_div]

namespace Double

variable {a b c d : Bool} {l h x y : Magnitude} {n : Int}

theorem toRat_lt_toRat_iff :
    l.toRat a < h.toRat b ↔ signedUnits a l.units < signedUnits b h.units := by
  rw [l.toRat_eq, h.toRat_eq, div_lt_div_iff_of_pos_right (pow_pos two_pos _), Int.cast_lt]

theorem toRat_le_toRat_iff :
    l.toRat a ≤ h.toRat b ↔ signedUnits a l.units ≤ signedUnits b h.units := by
  rw [l.toRat_eq, h.toRat_eq, div_le_div_iff_of_pos_right (pow_pos two_pos _), Int.cast_le]

/-- The places between which an integral number of units is rounded. -/
theorem signedUnits_nearestUnits (hw : HasPrecision w) (a : Bool) (n : Int) :
    (signedUnits a w ≤ n → signedUnits a w ≤ signedUnits (n < 0) (nearestUnits n.natAbs 1)) ∧
      (n ≤ signedUnits a w → signedUnits (n < 0) (nearestUnits n.natAbs 1) ≤ signedUnits a w) := by
  have hle : n.natAbs ≤ w → nearestUnits n.natAbs 1 ≤ w := fun h =>
    nearestUnits_le_of_le hw Nat.one_pos (by rwa [Nat.mul_one])
  have hge : w ≤ n.natAbs → w ≤ nearestUnits n.natAbs 1 := fun h =>
    le_nearestUnits_of_le hw Nat.one_pos (by rwa [Nat.mul_one])
  generalize nearestUnits n.natAbs 1 = u at hle hge
  cases a <;> by_cases hneg : n < 0 <;>
    simp only [hneg, decide_true, decide_false, signedUnits_true, signedUnits_false] <;> omega

/-- An integral number of units between two doubles is rounded to a double between them. -/
theorem ofSignedUnits_between (hl : signedUnits a l.units ≤ n) (hh : n ≤ signedUnits b h.units) :
    ∃ c m, ofSignedUnits n = finite c m ∧
      signedUnits a l.units ≤ signedUnits c m.units ∧ signedUnits c m.units ≤ signedUnits b h.units := by
  have hlow := (signedUnits_nearestUnits l.representable.1 a n).1 hl
  have hhigh := (signedUnits_nearestUnits h.representable.1 b n).2 hh
  have hlimit : nearestUnits n.natAbs 1 < unitLimit := by
    have hl := l.representable.2
    have hh := h.representable.2
    generalize nearestUnits n.natAbs 1 = u at hlow hhigh
    simp only [signedUnits] at hlow hhigh
    grind
  obtain ⟨m, hm, hunits⟩ := ofUnits_of_nearestUnits_lt (n < 0) hlimit
  exact ⟨n < 0, m, hm, by rwa [hunits], by rwa [hunits]⟩

/-- A sum that lies between two doubles is rounded to a double between them. -/
theorem add_between (hl : signedUnits a l.units ≤ signedUnits c x.units + signedUnits d y.units)
    (hh : signedUnits c x.units + signedUnits d y.units ≤ signedUnits b h.units) :
    ∃ e m, (finite c x).add (finite d y) = finite e m ∧
      signedUnits a l.units ≤ signedUnits e m.units ∧ signedUnits e m.units ≤ signedUnits b h.units := by
  rw [add]
  by_cases hsum : signedUnits c x.units + signedUnits d y.units = 0
  · rw [if_pos hsum]
    rw [hsum] at hl hh
    exact ⟨c && d, _, rfl, by simpa [signedUnits] using hl, by simpa [signedUnits] using hh⟩
  · rw [if_neg hsum]
    exact ofSignedUnits_between hl hh

theorem ofUnits_one (negative : Bool) (m : Magnitude) : ofUnits negative m.units 1 = finite negative m := by
  simpa using ofUnits_units negative m Nat.one_pos

/-- The neighbour of a double in the direction of a smaller one lies below it, and not below the smaller one. -/
theorem next_downward (hlt : signedUnits a l.units < signedUnits b h.units) :
    ∃ c m, (finite b h).next (finite a l) = finite c m ∧
      signedUnits a l.units ≤ signedUnits c m.units ∧ signedUnits c m.units < signedUnits b h.units := by
  have heqv : (finite b h).eqv (finite a l) = false := by
    simpa [eqv, placesEq, place?] using hlt.ne'
  have hdown : (finite b h).lt (finite a l) = false := by
    simpa [lt, placesLt, place?, Place.lt] using hlt.le
  simp only [next, heqv, hdown, Bool.false_eq_true, if_false, Bool.not_false]
  by_cases hzero : h.units = 0
  · -- Below both zeros comes the least negative double.
    have hone : Representable 1 := ⟨⟨1, 0, by decide, rfl⟩, Nat.one_lt_two_pow (by decide)⟩
    have hplace : signedUnits b h.units = 0 := by
      rw [hzero]
      cases b <;> rfl
    rw [if_pos hzero]
    refine ⟨true, ⟨1, hone⟩, ofUnits_one true ⟨1, hone⟩, ?_, ?_⟩ <;>
      simp only [signedUnits_true] <;> omega
  · rw [if_neg hzero]
    cases b with
    | false =>
      rw [if_pos rfl]
      have hbelow := h.representable.1.le_sub_gapBelow l.representable.1
      have hrepresentable : Representable (h.units - gapBelow h.units) :=
        ⟨h.representable.1.sub_gapBelow, (Nat.sub_le _ _).trans_lt h.representable.2⟩
      have hgap : 0 < gapBelow h.units := Nat.two_pow_pos _
      refine ⟨false, ⟨_, hrepresentable⟩, ofUnits_one false ⟨_, hrepresentable⟩, ?_, ?_⟩
      · cases a <;> simp only [signedUnits_true, signedUnits_false] at hlt ⊢ <;> omega
      · simp only [signedUnits_false]
        omega
    | true =>
      rw [if_neg Bool.false_ne_true]
      obtain ⟨rfl, hless⟩ : a = true ∧ h.units < l.units := by
        cases a <;> simp only [signedUnits_true, signedUnits_false] at hlt <;> grind
      have habove := h.representable.1.add_gapAbove_le l.representable.1 hless
      have hrepresentable : Representable (h.units + gapAbove h.units) :=
        ⟨h.representable.1.add_gapAbove, habove.trans_lt l.representable.2⟩
      have hgap : 0 < gapAbove h.units := Nat.two_pow_pos _
      refine ⟨true, ⟨_, hrepresentable⟩, ofUnits_one true ⟨_, hrepresentable⟩, ?_, ?_⟩ <;>
        simp only [signedUnits_true] <;> omega

end Double

end Primitives
