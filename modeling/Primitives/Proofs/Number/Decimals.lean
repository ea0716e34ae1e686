import Primitives.Number.Shortest
import Primitives.Proofs.Number.Rounding

/-!
# Reading decimal forms

A decimal form other than zero is read as the double nearest to its value: the bounds that are checked before
the value is multiplied out decide no form in another way. So reading depends on the value of a form only, and
zeros at the end of its digits may be moved to its exponent. The exact decimal form of a double is read as this
double, so that every double has a form that reads back.

## Main results

* `Double.ofDecimal_of_ne_zero`: forms are read as the nearest double.
* `Double.ofDecimal_shift`: zeros at the end of the digits.
* `readsBack_shortest`: the shortest form of a magnitude reads back.
-/

namespace Primitives

/-! ### Bounds of values -/

/-- Powers of ten from 309 on lie above all doubles. -/
theorem two_pow_1024_le {k : Nat} (h : 309 ≤ k) : 2 ^ 1024 ≤ 10 ^ k := by
  have hleast : 2 ^ 1024 ≤ 10 ^ 309 := by decide +kernel
  obtain ⟨j, rfl⟩ := Nat.exists_eq_add_of_le h
  rw [Nat.pow_add]
  generalize 10 ^ 309 = a at hleast ⊢
  exact hleast.trans (Nat.le_mul_of_pos_right a (Nat.pow_pos (by decide)))

/-- A power of ten is at least the power of two with three times its exponent. -/
theorem two_pow_three_mul_le (k : Nat) : 2 ^ (3 * k) ≤ 10 ^ k := by
  rw [Nat.pow_mul]
  exact Nat.pow_le_pow_left (by decide) k

namespace Double

variable {negative : Bool} {d : Decimal}

theorem ofRatio_of_huge (hdigits : d.digits ≠ 0) (h : 309 ≤ d.exponent) :
    ofRatio negative d.ratio.1 d.ratio.2 = infinite negative := by
  have hden : d.ratio.2 = 1 := by
    have hzero : (-d.exponent).toNat = 0 := by omega
    simp only [Decimal.ratio, hzero, Nat.pow_zero]
  have hnum : 2 ^ 1024 ≤ d.ratio.1 := by
    have hexponent : 309 ≤ d.exponent.toNat := by omega
    exact (two_pow_1024_le hexponent).trans (Nat.le_mul_of_pos_left _ (Nat.pos_of_ne_zero hdigits))
  rw [hden, ofRatio]
  refine ofUnits_of_limit_le negative Nat.one_pos ?_
  rw [unitLimit, Nat.mul_one, Nat.add_comm, Nat.pow_add]
  generalize 2 ^ 1024 = a at hnum ⊢
  exact Nat.mul_le_mul_right (2 ^ unitScale) hnum

theorem ofRatio_of_tiny (h : d.digits.log2 + 1080 < 3 * (-d.exponent).toNat) :
    ofRatio negative d.ratio.1 d.ratio.2 = zero negative := by
  generalize hk : (-d.exponent).toNat = k at h
  have hexponent : d.exponent.toNat = 0 := by omega
  have hratio : d.ratio = (d.digits, 10 ^ k) := by
    rw [Decimal.ratio, hexponent, hk, Nat.pow_zero, Nat.mul_one]
  rw [hratio, ofRatio]
  refine ofUnits_of_lt_half negative ?_
  calc 2 * (d.digits * 2 ^ unitScale) < 2 * (2 ^ (d.digits.log2 + 1) * 2 ^ unitScale) := by
        have hdigits := Nat.mul_lt_mul_of_pos_right (Nat.lt_log2_self (n := d.digits)) (Nat.two_pow_pos unitScale)
        omega
    _ = 2 ^ (d.digits.log2 + 1 + unitScale + 1) := by rw [← Nat.pow_add, ← Nat.pow_succ']
    _ ≤ 2 ^ (3 * k) := by
        have hscale : unitScale = 1074 := rfl
        exact Nat.pow_le_pow_right (by decide) (by omega)
    _ ≤ 10 ^ k := two_pow_three_mul_le k

/-- A form other than zero is read as the double nearest to its value. -/
theorem ofDecimal_of_ne_zero (negative : Bool) (h : d.digits ≠ 0) :
    ofDecimal negative d = ofRatio negative d.ratio.1 d.ratio.2 := by
  rw [ofDecimal, if_neg h]
  split
  · next hhuge => exact (ofRatio_of_huge h hhuge).symm
  · split
    · next htiny => exact (ofRatio_of_tiny htiny).symm
    · rfl

theorem ofDecimal_of_eq_zero (negative : Bool) (h : d.digits = 0) : ofDecimal negative d = zero negative := by
  rw [ofDecimal, if_pos h]

/-- The sign of a form is the sign of the double. -/
theorem ofDecimal_withSign (negative : Bool) (d : Decimal) :
    ofDecimal negative d = (ofDecimal false d).withSign negative := by
  by_cases h : d.digits = 0
  · rw [ofDecimal_of_eq_zero negative h, ofDecimal_of_eq_zero false h]
    rfl
  · rw [ofDecimal_of_ne_zero negative h, ofDecimal_of_ne_zero false h]
    exact ofUnits_withSign ..

/-! ### Forms of equal value -/

/-- Forms with equal values are read alike. -/
theorem ofDecimal_congr {d' : Decimal} (h : d.ratio.1 * d'.ratio.2 = d'.ratio.1 * d.ratio.2) (negative : Bool) :
    ofDecimal negative d = ofDecimal negative d' := by
  have hpos (e : Decimal) : 0 < e.ratio.2 := Nat.pow_pos (by decide)
  have hzero (e : Decimal) : e.digits = 0 ↔ e.ratio.1 = 0 := by simp [Decimal.ratio]
  by_cases hd : d.digits = 0
  · have hd' : d'.digits = 0 := by
      rw [(hzero d).1 hd, Nat.zero_mul] at h
      exact (hzero d').2 ((Nat.mul_eq_zero.1 h.symm).resolve_right (hpos d).ne')
    rw [ofDecimal_of_eq_zero negative hd, ofDecimal_of_eq_zero negative hd']
  · have hd' : d'.digits ≠ 0 := fun hd' => by
      rw [(hzero d').1 hd', Nat.zero_mul] at h
      exact hd ((hzero d).2 ((Nat.mul_eq_zero.1 h).resolve_right (hpos d').ne'))
    rw [ofDecimal_of_ne_zero negative hd, ofDecimal_of_ne_zero negative hd',
      ← ofRatio_mul_right negative d.ratio.1 d.ratio.2 (hpos d'), h, Nat.mul_comm d.ratio.2,
      ofRatio_mul_right negative _ _ (hpos d)]

/-- Zeros at the end of the digits of a form may be moved to its exponent. -/
theorem ofDecimal_shift (negative : Bool) (digits zeros : Nat) (exponent : Int) :
    ofDecimal negative ⟨digits * 10 ^ zeros, exponent⟩ = ofDecimal negative ⟨digits, exponent + zeros⟩ := by
  refine ofDecimal_congr ?_ negative
  have hexponents : zeros + exponent.toNat + (-(exponent + zeros)).toNat =
      (exponent + zeros).toNat + (-exponent).toNat := by omega
  simp only [Decimal.ratio, Nat.mul_assoc, ← Nat.pow_add, hexponents]

end Double

/-! ### Forms that read back -/

variable {units : Nat}

theorem readsBack_iff {d : Decimal} (h : Representable units) :
    readsBack units d = true ↔ Double.ofDecimal false d = .finite false ⟨units, h⟩ := by
  have hsign := Double.ofDecimal_withSign false d
  unfold readsBack
  cases hread : Double.ofDecimal false d with
  | finite negative m =>
    obtain rfl : negative = false := by
      rw [hread] at hsign
      exact (Double.finite.inj hsign).1
    cases m
    simp
  | infinite negative => simp
  | nan => simp

/-- The exact decimal form of a magnitude reads back. -/
theorem readsBack_exactDecimal (h : Representable units) (hne : units ≠ 0) :
    readsBack units (exactDecimal units) = true := by
  have hdigits : (exactDecimal units).digits ≠ 0 :=
    Nat.mul_ne_zero hne (Nat.pow_pos (by decide)).ne'
  have hratio : (exactDecimal units).ratio = (units * 5 ^ unitScale, 10 ^ unitScale) := by
    have hzero : (-(unitScale : Int)).toNat = 0 := Int.toNat_neg_natCast unitScale
    have hscale : (- -(unitScale : Int)).toNat = unitScale := by rw [Int.neg_neg, Int.toNat_natCast]
    rw [exactDecimal, Decimal.ratio, hzero, hscale]
    exact Prod.ext (Nat.mul_one _) rfl
  have hten (k : Nat) : 10 ^ k = 5 ^ k * 2 ^ k := Nat.mul_pow 5 2 k
  rw [readsBack_iff h, Double.ofDecimal_of_ne_zero false hdigits, hratio, Double.ofRatio]
  dsimp only
  rw [Nat.mul_assoc, hten]
  exact Double.ofUnits_units false ⟨units, h⟩ (Nat.mul_pos (Nat.pow_pos (by decide)) (Nat.two_pow_pos _))

/-- The shortest form of a positive magnitude reads back. -/
theorem readsBack_shortest (h : Representable units) (hne : units ≠ 0) :
    readsBack units (shortest units) = true := by
  unfold shortest
  dsimp only
  cases hfound : List.findSome? (shortestOn? units)
      ((List.range 17).map fun (n : Nat) => decimalExponent units - n) with
  | none => exact readsBack_exactDecimal h hne
  | some d =>
    obtain ⟨place, -, hplace⟩ := List.exists_of_findSome?_eq_some hfound
    exact List.find?_some hplace

/-- A form that reads back as a positive magnitude has digits. -/
theorem digits_ne_zero_of_readsBack {d : Decimal} (h : Representable units) (hne : units ≠ 0)
    (hd : readsBack units d = true) : d.digits ≠ 0 := by
  intro hdigits
  rw [readsBack_iff h, Double.ofDecimal_of_eq_zero false hdigits] at hd
  exact hne (congrArg Magnitude.units (Double.finite.inj hd).2).symm

end Primitives
