import Primitives.Proofs.Number.IntegralDoubles
import Primitives.Proofs.Number.StrictFunctions
import Primitives.Proofs.Number.Values

/-!
# Functions of numbers as guarded strict functions

The functions of numbers are strict functions behind guards. At a pole, outside of the domain and for an
overflow, the guard gives the value that the function of doubles has there.

## Main definitions

* `Guarded.functions`: the guarded strict functions of one number by name.

## Main results

* `Guarded.log_agrees`, `Guarded.exp_agrees`, `Guarded.toWhole_agrees`, …: agreement with functions of one number.
* `Guarded.fmod_agrees`, `Guarded.pow_agrees`: agreement with functions of two numbers.
-/

namespace Primitives.Guarded

open Number

variable {a : Double}

/-! ### Doubles and zero -/

theorem lt_finite (negative : Bool) (m : Magnitude) (c : Int) :
    (double (.finite negative m)).lt (int c) = decide (Double.signedUnits negative m.units < c * 2 ^ unitScale) :=
  rfl

theorem eqv_finite (negative : Bool) (m : Magnitude) (c : Int) :
    (double (.finite negative m)).eqv (int c) = decide (Double.signedUnits negative m.units = c * 2 ^ unitScale) := by
  rw [Bool.eq_iff_iff, decide_eq_true_eq]
  refine (beq_iff_eq (a := Place.units (Double.signedUnits negative m.units))).trans ?_
  rw [Place.ofInt, Place.units.injEq]

theorem eqv_zero (a : Double) : (double a).eqv (int 0) = a.isZero := by
  cases a with
  | finite negative m =>
    rw [eqv_finite, Int.zero_mul, Double.isZero, Double.signedUnits]
    cases negative <;> simp
  | infinite negative => cases negative <;> rfl
  | nan => rfl

theorem lt_zero (negative : Bool) (m : Magnitude) :
    (double (.finite negative m)).lt (int 0) = (negative && m.units ≠ 0) := by
  rw [lt_finite, Int.zero_mul, Double.signedUnits]
  cases negative <;> simp [Nat.pos_iff_ne_zero]

/-! ### Logarithms -/

theorem logOver_of_eqv (base : Nat) (a : Double) (h : (double a).eqv (int 0)) :
    Double.logOver base a = .infinite true := by
  rw [eqv_zero] at h
  cases a with
  | finite negative m => rw [Double.logOver, if_pos (by simpa [Double.isZero] using h)]
  | infinite _ | nan => cases h

theorem logOver_of_lt (base : Nat) (a : Double) (h : (double a).lt (int 0)) : Double.logOver base a = .nan := by
  cases a with
  | finite negative m =>
    rw [lt_zero] at h
    obtain ⟨rfl, hunits⟩ : negative = true ∧ m.units ≠ 0 := by simpa using h
    rw [Double.logOver, if_neg hunits, if_pos rfl]
  | infinite negative =>
    cases negative with
    | true => rfl
    | false => cases h
  | nan => cases h

theorem log1p_of_eqv (a : Double) (h : (double a).eqv (int (-1))) : Double.log1p a = .infinite true := by
  cases a with
  | finite negative m =>
    rw [eqv_finite, decide_eq_true_eq] at h
    have hunits : m.units ≠ 0 := by
      intro hzero
      have hpos : (0 : Int) < 2 ^ unitScale := Int.pow_pos (by decide)
      have hsigned : Double.signedUnits negative m.units = 0 := by simp [Double.signedUnits, hzero]
      omega
    have hargument : Double.signedUnits negative m.units + 2 ^ unitScale = 0 := by omega
    simp only [Double.log1p, if_neg hunits, hargument, if_true]
  | infinite negative => cases negative <;> cases h
  | nan => cases h

theorem log1p_of_lt (a : Double) (h : (double a).lt (int (-1))) : Double.log1p a = .nan := by
  cases a with
  | finite negative m =>
    rw [lt_finite, decide_eq_true_eq] at h
    have hpos : (0 : Int) < 2 ^ unitScale := Int.pow_pos (by decide)
    have hunits : m.units ≠ 0 := by
      intro hzero
      have hsigned : Double.signedUnits negative m.units = 0 := by simp [Double.signedUnits, hzero]
      omega
    have hargument : Double.signedUnits negative m.units + 2 ^ unitScale < 0 := by omega
    simp only [Double.log1p, if_neg hunits, if_neg (Int.ne_of_lt hargument), if_pos hargument]
  | infinite negative =>
    cases negative with
    | true => rfl
    | false => cases h
  | nan => cases h

theorem log_agrees (base : Nat) :
    Agrees (logarithm (Strict.restricted (atOrBelow 0) (Double.logOver base)) 0) (·.applied (Double.logOver base)) :=
  agrees_logarithm (by decide) rfl (logOver_of_eqv base) (logOver_of_lt base)

theorem log1p_agrees :
    Agrees (logarithm (Strict.restricted (atOrBelow (-1)) Double.log1p) (-1)) (·.applied Double.log1p) :=
  agrees_logarithm (by decide) rfl log1p_of_eqv log1p_of_lt

/-! ### Growing functions -/

theorem overflowsTo_infinite (negative : Bool) : OverflowsTo negative (.infinite negative) :=
  fun _ => rfl

theorem overflowsTo_of_not {negative : Bool} (h : a.isInfinite = false) : OverflowsTo negative a :=
  fun hinfinite => absurd hinfinite (by simp [h])

theorem overflowsTo_ofRatio (negative : Bool) (num den : Nat) :
    OverflowsTo negative (Double.ofRatio negative num den) := by
  rw [Double.ofRatio, Double.ofUnits]
  split
  · exact overflowsTo_of_not rfl
  · exact overflowsTo_infinite negative

theorem OverflowsTo.ite {negative : Bool} {p : Prop} [Decidable p] {b : Double} (ha : OverflowsTo negative a)
    (hb : OverflowsTo negative b) : OverflowsTo negative (if p then a else b) := by
  split
  · exact ha
  · exact hb

theorem overflowsTo_ofGrowth (decay : Bool) (g : Nat) : OverflowsTo false (Double.ofGrowth decay g) := by
  rw [Double.ofGrowth]
  exact .ite (.ite (overflowsTo_of_not rfl) (overflowsTo_infinite false))
    (.ite (overflowsTo_ofRatio _ _ _) (overflowsTo_ofRatio _ _ _))

theorem overflowsTo_ofHyperbola (negative : Bool) (join : Nat → Nat → Nat) (units : Nat) :
    OverflowsTo negative (Double.ofHyperbola negative join units) := by
  rw [Double.ofHyperbola]
  exact .ite (overflowsTo_infinite negative) (overflowsTo_ofRatio _ _ _)

theorem overflowsTo_withSign (negative : Bool) (h : OverflowsTo false a) :
    OverflowsTo negative (a.withSign negative) := by
  cases a with
  | infinite _ => exact overflowsTo_infinite negative
  | finite _ _ | nan => exact overflowsTo_of_not rfl

/-- A quotient of at most one is finite. -/
theorem isInfinite_ofRatio_of_le (negative : Bool) {num den : Nat} (h : num ≤ den) :
    (Double.ofRatio negative num den).isInfinite = false := by
  have hunits : 2 * (num * 2 ^ unitScale / den) + 1 < unitLimit := by
    have hquotient : num * 2 ^ unitScale / den ≤ 1 * 2 ^ unitScale := by
      rw [Nat.one_mul]
      exact Nat.div_le_of_le_mul (Nat.mul_le_mul_right _ h)
    have hone : 2 * (1 * 2 ^ unitScale) + 1 < unitLimit := by
      unfold unitLimit
      exact scaled_lt_two_pow (by decide) (by decide)
    omega
  obtain ⟨m, hm⟩ := Double.ofUnits_of_lt negative hunits
  rw [Double.ofRatio, hm]
  rfl

/-- Small integers are finite doubles. -/
theorem isInfinite_ofInt {n : Int} (h : n.natAbs ≤ doubleBound) : (Double.ofInt n).isInfinite = false := by
  obtain ⟨m, hm⟩ := exists_ofInt h
  rw [hm]
  rfl

theorem overflowsTo_expm1 {negative : Bool} {m : Magnitude} :
    OverflowsTo false (Double.expm1 (.finite negative m)) := by
  rw [Double.expm1]
  have hone : OverflowsTo false (Double.ofInt (-1)) := overflowsTo_of_not (isInfinite_ofInt (by decide))
  refine .ite (overflowsTo_of_not rfl) (.ite (.ite hone (overflowsTo_infinite false)) ?_)
  cases negative with
  | true =>
    simp only [if_true]
    exact overflowsTo_of_not (isInfinite_ofRatio_of_le _ (Nat.sub_le _ _))
  | false => exact overflowsTo_ofRatio _ _ _

theorem exp_agrees :
    Agrees (recovering (Strict.bounded Double.exp) fun _ => .ok (.infinite false)) fun x => .ok x.exp :=
  agrees_recovering fun _ _ => overflowsTo_ofGrowth _ _

theorem expm1_agrees :
    Agrees (recovering (Strict.bounded Double.expm1) fun _ => .ok (.infinite false)) fun x => .ok x.expm1 :=
  agrees_recovering fun _ _ => overflowsTo_expm1

theorem cosh_agrees :
    Agrees (recovering (Strict.bounded Double.cosh) fun _ => .ok (.infinite false)) fun x => .ok x.cosh :=
  agrees_recovering fun _ _ => by
    rw [Double.cosh]
    exact overflowsTo_ofHyperbola _ _ _

theorem sinh_agrees : Agrees (recovering (Strict.bounded Double.sinh) signedInfinity) (·.applied Double.sinh) :=
  agrees_recovering_signed fun _ _ => by
    rw [Double.sinh]
    exact .ite (overflowsTo_of_not rfl) (overflowsTo_ofHyperbola _ _ _)

/-! ### Domains decided by comparison -/

theorem sqrt_agrees :
    Agrees (asking (Strict.restricted (fun a => (double a).lt (int 0)) Double.sqrt) (·.lt (int 0))) Number.sqrt :=
  agrees_asking (·.lt (int 0)) Double.sqrt fun _ _ h => (compare_toDouble h (by decide)).1

theorem acosh_agrees :
    Agrees (asking (Strict.restricted (fun a => (double a).lt (int 1)) Double.acosh) (·.lt (int 1))) Number.acosh :=
  agrees_asking (·.lt (int 1)) Double.acosh fun _ _ h => (compare_toDouble h (by decide)).1

/-- A number beyond one and minus one. -/
def beyondOne (x : Number) : Bool :=
  x.abs.exceeds (int 1)

theorem beyondOne_toDouble {x : Number} (h : x.toDouble = .ok a) : beyondOne x = beyondOne (double a) :=
  (compare_toDouble (toDouble_abs h) (by decide)).2.1

theorem withinOne_agrees (f : Double → Double) :
    Agrees (asking (Strict.restricted (fun a => beyondOne (double a)) f) beyondOne) (withinOne f) :=
  agrees_asking beyondOne f fun _ _ h => beyondOne_toDouble h

theorem trigonometric_agrees {f : Double → Double} (hf : ∀ negative, f (.infinite negative) = .nan) :
    Agrees (askingRounded (Strict.restricted Double.isInfinite f) Double.isInfinite) (·.applied f) :=
  agrees_askingRounded fun a h => by
    cases a with
    | infinite negative => exact hf negative
    | finite _ _ | nan => cases h

/-- The arguments without an area tangent. -/
def atOrBeyondOne (a : Double) : Bool :=
  (double a).abs.eqv (int 1) || beyondOne (double a)

theorem atanh_of_eqv (h : (double a).abs.eqv (int 1)) : Double.atanh a = .infinite a.isNegative := by
  cases a with
  | finite negative m =>
    have habs : (double (.finite negative m)).abs = double (.finite false m) := rfl
    rw [habs, eqv_finite, decide_eq_true_eq, Double.signedUnits, if_neg Bool.false_ne_true, Int.one_mul] at h
    have hunits : m.units = 2 ^ unitScale := by
      have hcast : ((2 ^ unitScale : Nat) : Int) = 2 ^ unitScale := Int.natCast_pow 2 unitScale
      exact Int.natCast_inj.1 (h.trans hcast.symm)
    have hne : m.units ≠ 0 := hunits ▸ (Nat.two_pow_pos unitScale).ne'
    rw [Double.atanh, if_neg hne, if_pos hunits]
    rfl
  | infinite _ | nan => cases h

theorem atanh_agrees : Agrees (Guarded.atanh (Strict.restricted atOrBeyondOne Double.atanh)) Number.atanh := by
  intro x
  have hexceeds (h : x.abs.eqv (int 1)) : beyondOne x = false := (le_iff.2 (.inr h)).not_lt
  have hnumber : x.atanh = if beyondOne x then .ok .nan else x.applied Double.atanh := rfl
  rw [hnumber, Guarded.atanh]
  change (if x.abs.eqv (int 1) then signedInfinity x else if beyondOne x then _ else _) = _
  cases h : x.toDouble with
  | error fault =>
    rw [signedInfinity, rounded_of_error h, applied, h]
    by_cases heqv : x.abs.eqv (int 1)
    · rw [if_pos heqv, hexceeds heqv]
      rfl
    · rw [if_neg heqv]
      cases beyondOne x <;> rfl
  | ok a =>
    have heqvDouble : x.abs.eqv (int 1) = (double a).abs.eqv (int 1) :=
      (compare_toDouble (toDouble_abs h) (by decide)).2.2
    have hbeyond := beyondOne_toDouble h
    rw [signedInfinity_of_ok h, rounded_of_ok h, applied, h]
    by_cases heqv : x.abs.eqv (int 1)
    · rw [if_pos heqv, hexceeds heqv]
      simp [atanh_of_eqv (heqvDouble ▸ heqv)]
    · rw [if_neg heqv]
      cases hx : beyondOne x with
      | true => rfl
      | false =>
        have hdomain : atOrBeyondOne a = false := by
          rw [atOrBeyondOne, ← heqvDouble, ← hbeyond, hx, Bool.or_false]
          simpa using heqv
        simp [Strict.restricted, hdomain]

/-! ### Integral doubles -/

theorem isFinite_toWhole {choose : Bool → Nat → Nat} (hchoose : Double.NearWhole choose) (a : Double)
    (h : a.isFinite) : (a.toWhole choose).isFinite := by
  cases a with
  | infinite _ | nan => cases h
  | finite negative m =>
    rw [Double.toWhole_finite hchoose]
    rfl

theorem toWhole_agrees {choose : Bool → Nat → Nat} (hchoose : Double.NearWhole choose) :
    Agrees (whole (Strict.whole (Double.toWhole choose))) (·.applied (Double.toWhole choose)) :=
  agrees_whole (isFinite_toWhole hchoose) fun a h => by
    cases a with
    | finite _ _ => cases h
    | infinite _ | nan => rfl

theorem round_agrees : Agrees (whole (Strict.whole Double.round)) (·.applied Double.round) := by
  unfold Double.round
  exact toWhole_agrees Double.nearWhole_nearestWhole

/-! ### Functions of two numbers -/

theorem fmod_agrees (x y : Number) :
    Guarded.fmod Strict.fmod x y = (Number.fmod x y).mapError fun _ => .overflow := by
  rw [Guarded.fmod, Number.fmod]
  cases hx : x.toDouble with
  | error fault =>
    rw [rounded_of_error hx]
    rfl
  | ok a =>
    rw [rounded_of_ok hx, Outcome.ok_bind, Outcome.ok_bind]
    cases hguard : a.isInfinite || y.eqv (int 0) with
    | true => rfl
    | false =>
      obtain ⟨hinfinite, hzero⟩ := Bool.or_eq_false_iff.1 hguard
      cases hy : y.toDouble with
      | error fault =>
        rw [rounded_of_error hy]
        rfl
      | ok b =>
        rw [(compare_toDouble hy (by decide)).2.2, eqv_zero] at hzero
        simp [rounded_of_ok hy, Strict.fmod, hinfinite, hzero]

/-- A zero has infinite powers below zero, with its sign for odd exponents. -/
theorem pow_of_pole {negative : Bool} {m n : Magnitude} (hm : m.units = 0) (hn : n.units ≠ 0) :
    Double.pow (.finite negative m) (.finite true n) =
      .infinite (negative && Double.isOddInteger (.finite true n)) := by
  have hone : 0 ≠ 2 ^ unitScale := (Nat.two_pow_pos unitScale).ne
  simp only [Double.pow, Double.isZero, Double.isOne, hm, hn, hone, decide_false, Bool.and_false, Bool.or_false,
    Bool.false_eq_true, if_false, if_true]

/-- A negative base has no powers between integers. -/
theorem pow_of_fraction {negative : Bool} {m n : Magnitude} (hm : m.units ≠ 0)
    (hn : Double.isInteger (.finite negative n) = false) :
    Double.pow (.finite true m) (.finite negative n) = .nan := by
  have hzero : n.units ≠ 0 := by
    intro hzero
    rw [Double.isInteger, hzero, Nat.zero_mod] at hn
    cases hn
  simp only [Double.pow, Double.isZero, Double.isOne, hm, hzero, hn, decide_false, Bool.not_true, Bool.false_and,
    Bool.or_false, Bool.false_eq_true, if_false, Bool.not_false, Bool.and_true, if_true]

theorem overflowsTo_powPositive (negative negative' : Bool) (base exponent : Nat) :
    OverflowsTo negative (Double.powPositive negative base negative' exponent) := by
  rw [Double.powPositive]
  exact overflowsTo_withSign _ (overflowsTo_ofGrowth _ _)

/-- Powers that exceed all doubles have the sign of the base for odd exponents. -/
theorem overflowsTo_pow {negative negative' : Bool} {m n : Magnitude}
    (hpole : ¬ (m.units = 0 ∧ negative' = true ∧ n.units ≠ 0)) :
    OverflowsTo ((double (.finite negative m)).lt (int 0) && Double.isOddInteger (.finite negative' n))
      (Double.pow (.finite negative m) (.finite negative' n)) := by
  rw [Double.pow]
  by_cases hm : m.units = 0
  · cases negative' with
    | true =>
      have hn : n.units = 0 := by simpa [hm] using hpole
      rw [if_pos (by simp [Double.isZero, hn])]
      exact overflowsTo_of_not (isInfinite_ofInt (by decide))
    | false =>
      refine .ite (overflowsTo_of_not (isInfinite_ofInt (by decide))) ?_
      dsimp only
      rw [if_pos hm, if_neg Bool.false_ne_true]
      exact overflowsTo_of_not rfl
  · refine .ite (overflowsTo_of_not (isInfinite_ofInt (by decide))) ?_
    dsimp only
    rw [if_neg hm, lt_zero, decide_eq_true hm, Bool.and_true]
    exact .ite (overflowsTo_of_not rfl) (overflowsTo_powPositive _ _ _ _)

/-- The power that stands for an outcome of the strict function. -/
def powerOf (a b : Double) : Except StrictFault Double → Double
  | .ok c => c
  | .error .outsideDomain =>
    if a.isZero && (double b).lt (int 0) then .infinite (a.isNegative && b.isOddInteger) else .nan
  | .error .overflow => .infinite ((double a).lt (int 0) && b.isOddInteger)

theorem powerOf_strict (a b : Double) : powerOf a b (Strict.pow a b) = Double.pow a b := by
  rw [Strict.pow]
  cases hfinite : a.isFinite && b.isFinite with
  | false => rfl
  | true =>
    rw [if_pos rfl]
    obtain ⟨negative, m, rfl⟩ : ∃ negative m, a = .finite negative m := by cases a <;> simp_all [Double.isFinite]
    obtain ⟨negative', n, rfl⟩ : ∃ negative m, b = .finite negative m := by cases b <;> simp_all [Double.isFinite]
    rw [lt_zero, lt_zero]
    by_cases hpole : m.units = 0 ∧ negative' = true ∧ n.units ≠ 0
    · obtain ⟨hm, rfl, hn⟩ := hpole
      rw [pow_of_pole hm hn]
      simp [powerOf, lt_zero, Double.isZero, Double.isNegative, hm, hn]
    · by_cases hfraction : m.units ≠ 0 ∧ negative = true ∧ Double.isInteger (.finite negative' n) = false
      · obtain ⟨hm, rfl, hn⟩ := hfraction
        rw [pow_of_fraction hm hn]
        simp [powerOf, lt_zero, Double.isZero, hm, hn]
      · rw [if_neg (by grind [Double.isZero]), Strict.bounded]
        cases hinfinite : (Double.pow (.finite negative m) (.finite negative' n)).isInfinite with
        | true => exact (overflowsTo_pow hpole hinfinite).symm
        | false => rfl

/-- The guard of powers replaces an overflow, of an argument or of the power, in the same way as powers do. -/
theorem overflow_agrees (x y : Number) :
    (if x.lt (int 0) then (do return .infinite (← y.rounded).isOddInteger : Except StrictFault Double)
      else .ok (.infinite false)) =
    (if x.lt (int 0) then y.applied fun y => Double.infinite y.isOddInteger
      else .ok (.infinite false)).mapError fun _ => .overflow := by
  split
  · rw [rounded, applied]
    cases y.toDouble <;> rfl
  · rfl

theorem pow_agrees (x y : Number) :
    Guarded.pow Strict.pow x y = (Number.pow x y).mapError fun _ => .overflow := by
  rw [Guarded.pow, Number.pow, applied₂]
  cases hx : x.toDouble with
  | error fault =>
    rw [rounded_of_error hx]
    exact overflow_agrees x y
  | ok a =>
    rw [rounded_of_ok hx]
    cases hy : y.toDouble with
    | error fault =>
      rw [rounded_of_error hy]
      refine Eq.trans ?_ (overflow_agrees x y)
      rw [rounded_of_error hy]
      rfl
    | ok b =>
      change _ = Except.ok (Double.pow a b)
      rw [rounded_of_ok hy, signedInfinity_of_ok hx, (compare_toDouble hx (by decide)).1,
        (compare_toDouble hx (by decide)).2.2, (compare_toDouble hy (by decide)).1, eqv_zero, ← powerOf_strict,
        Outcome.ok_bind, Outcome.ok_bind]
      cases Strict.pow a b with
      | ok c => rfl
      | error fault =>
        cases fault with
        | outsideDomain =>
          simp only [powerOf, Outcome.ok_bind]
          split
          · cases b.isOddInteger <;> simp
          · rfl
        | overflow =>
          simp only [powerOf]
          cases (double a).lt (int 0) <;> rfl

/-! ### Functions by name -/

/-- The guarded strict functions of one number. -/
def functions : List (String × (Number → Except StrictFault Double)) :=
  [("floor", whole (Strict.whole Double.floor)),
    ("ceil", whole (Strict.whole Double.ceil)),
    ("round", whole (Strict.whole Double.round)),
    ("trunc", whole (Strict.whole Double.trunc)),
    ("sqrt", asking (Strict.restricted (fun a => (double a).lt (int 0)) Double.sqrt) (·.lt (int 0))),
    ("exp", recovering (Strict.bounded Double.exp) fun _ => .ok (.infinite false)),
    ("expm1", recovering (Strict.bounded Double.expm1) fun _ => .ok (.infinite false)),
    ("log", logarithm (Strict.restricted (atOrBelow 0) Double.log) 0),
    ("log2", logarithm (Strict.restricted (atOrBelow 0) Double.log2) 0),
    ("log10", logarithm (Strict.restricted (atOrBelow 0) Double.log10) 0),
    ("log1p", logarithm (Strict.restricted (atOrBelow (-1)) Double.log1p) (-1)),
    ("sin", askingRounded (Strict.restricted Double.isInfinite Double.sin) Double.isInfinite),
    ("cos", askingRounded (Strict.restricted Double.isInfinite Double.cos) Double.isInfinite),
    ("tan", askingRounded (Strict.restricted Double.isInfinite Double.tan) Double.isInfinite),
    ("asin", asking (Strict.restricted (fun a => beyondOne (double a)) Double.asin) beyondOne),
    ("acos", asking (Strict.restricted (fun a => beyondOne (double a)) Double.acos) beyondOne),
    ("sinh", recovering (Strict.bounded Double.sinh) signedInfinity),
    ("cosh", recovering (Strict.bounded Double.cosh) fun _ => .ok (.infinite false)),
    ("acosh", asking (Strict.restricted (fun a => (double a).lt (int 1)) Double.acosh) (·.lt (int 1))),
    ("atanh", Guarded.atanh (Strict.restricted atOrBeyondOne Double.atanh))]

/-- The guarded strict functions of two numbers. -/
def functionsOfTwo : List (String × (Number → Number → Except StrictFault Double)) :=
  [("pow", Guarded.pow Strict.pow), ("fmod", Guarded.fmod Strict.fmod)]

end Primitives.Guarded
