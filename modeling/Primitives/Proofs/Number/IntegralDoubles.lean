import Mathlib.Data.Rat.Floor
import Primitives.Number.Basic
import Primitives.Proofs.Number.Neighbours
import Primitives.Proofs.Outcomes

/-!
# Integral doubles near a double

A double with a fraction has a whole part of at most 53 binary digits, so the integers on either side of it are
doubles, and a double without a fraction is an integer itself. The four functions that choose an integer near a double
therefore give exactly this integer, with the sign of the argument also for a zero.

The integer can be made first and become a double after: by a division with a floor, by one that is cut off, and, for
the nearest integer, by comparing what is cut off with one half. No step of this rounds or is too large.

## Main definitions

* `Double.NearWhole`: choices of an integer next to a magnitude.
* `Double.IsExactly`: doubles of an integral value with a sign.
* `Double.IsIntegerPart`, `Double.IsNearestInteger`: the integer part towards zero, and the nearest integer with halves
  away from zero.
* `Double.byInteger`, `Double.nearestByHalf`: the functions as they go through integers.

## Main results

* `Double.toWhole_finite`: the chosen integer is a double.
* `Double.toWhole_toWhole`, `Double.neg_toWhole`: choosing twice, and choosing on the other side of zero.
* `Double.byInteger_eq`: going through integers.
* `Double.rounding_exact`: floor, ceiling, truncation and rounding of all doubles.
-/

namespace Primitives.Double

variable {choose : Bool → Nat → Nat} {negative : Bool} {m : Magnitude} {units k : Nat} {x : Double} {v : ℚ} {n : ℤ}

/-! ### Whole parts and fractions -/

theorem wholePart_mul_add (units : Nat) : wholePart units * 2 ^ unitScale + fractionUnits units = units :=
  Nat.div_add_mod' ..

theorem fractionUnits_lt (units : Nat) : fractionUnits units < 2 ^ unitScale :=
  Nat.mod_lt _ (Nat.two_pow_pos _)

theorem wholePart_mul (k : Nat) : wholePart (k * 2 ^ unitScale) = k :=
  Nat.mul_div_cancel k (Nat.two_pow_pos _)

theorem fractionUnits_mul (k : Nat) : fractionUnits (k * 2 ^ unitScale) = 0 :=
  Nat.mul_mod_left ..

theorem hasPrecision_fractionUnits (h : HasPrecision units) : HasPrecision (fractionUnits units) := by
  obtain ⟨r, s, hr, rfl⟩ := h
  by_cases hs : s ≤ unitScale
  · have hscale : 2 ^ unitScale = 2 ^ (unitScale - s) * 2 ^ s := by rw [← Nat.pow_add, Nat.sub_add_cancel hs]
    refine ⟨r % 2 ^ (unitScale - s), s, (Nat.mod_le ..).trans_lt hr, ?_⟩
    rw [fractionUnits, hscale, Nat.mul_mod_mul_right]
  · have hdvd : 2 ^ unitScale ∣ r * 2 ^ s := Nat.dvd_mul_left_of_dvd (Nat.pow_dvd_pow 2 (by omega)) r
    exact ⟨0, 0, by decide, Nat.mod_eq_zero_of_dvd hdvd⟩

/-- Magnitudes with a fraction are small. -/
theorem wholePart_lt (m : Magnitude) (h : fractionUnits m.units ≠ 0) : wholePart m.units < 2 ^ precision := by
  obtain ⟨⟨k, s, hk, hunits⟩, -⟩ := m.representable
  have hs : s < unitScale := by
    by_contra hle
    refine h ((Nat.dvd_iff_mod_eq_zero ..).1 ?_)
    rw [hunits]
    exact Nat.dvd_mul_left_of_dvd (Nat.pow_dvd_pow 2 (Nat.not_lt.1 hle)) k
  rw [wholePart, Nat.div_lt_iff_lt_mul (Nat.two_pow_pos _), hunits]
  exact Nat.mul_lt_mul_of_lt_of_le hk (Nat.pow_le_pow_right (by decide) hs.le) (Nat.two_pow_pos _)

/-! ### Integers next to a magnitude -/

/-- A number that is chosen next to a magnitude: its integer part, or one more if units are left over. -/
def NearWhole (choose : Bool → Nat → Nat) : Prop :=
  ∀ negative units, choose negative units = wholePart units ∨
    fractionUnits units ≠ 0 ∧ choose negative units = wholePart units + 1

theorem nearWhole_awayIf (away : Bool → Bool) : NearWhole fun negative => awayIf (away negative) := by
  intro negative units
  dsimp only
  rw [awayIf]
  split
  · next h =>
    rw [Bool.and_eq_true, bne_iff_ne] at h
    exact .inr ⟨h.2, rfl⟩
  · exact .inl rfl

theorem nearWhole_wholePart : NearWhole fun _ units => wholePart units :=
  fun _ _ => .inl rfl

/-- The integer nearest to a magnitude, the greater one of two. -/
def nearestWhole (units : Nat) : Nat :=
  if 2 ^ unitScale ≤ 2 * fractionUnits units then wholePart units + 1 else wholePart units

theorem nearWhole_nearestWhole : NearWhole fun _ => nearestWhole := by
  intro negative units
  dsimp only
  rw [nearestWhole]
  split
  · next h =>
    refine .inr ⟨fun hzero => ?_, rfl⟩
    rw [hzero, Nat.mul_zero] at h
    exact Nat.not_lt.2 h (Nat.two_pow_pos _)
  · exact .inl rfl

namespace NearWhole

variable (hchoose : NearWhole choose)
include hchoose

theorem of_whole (negative : Bool) (k : Nat) : choose negative (k * 2 ^ unitScale) = k :=
  ((hchoose negative _).resolve_right fun hmore => hmore.1 (fractionUnits_mul k)).trans (wholePart_mul k)

/-- The chosen integer is the magnitude of a double. -/
theorem representable (negative : Bool) (m : Magnitude) :
    Representable (choose negative m.units * 2 ^ unitScale) := by
  by_cases hfraction : fractionUnits m.units = 0
  · have hwhole := wholePart_mul_add m.units
    rw [hfraction, Nat.add_zero] at hwhole
    rw [(hchoose negative m.units).resolve_right fun hmore => hmore.1 hfraction, hwhole]
    exact m.representable
  · have hsmall := wholePart_lt m hfraction
    have hle : choose negative m.units ≤ 2 ^ precision := by
      rcases hchoose negative m.units with hwhole | ⟨-, hwhole⟩ <;> omega
    refine ⟨.of_le hle unitScale, (Nat.mul_le_mul_right _ hle).trans_lt ?_⟩
    rw [← Nat.pow_add, unitLimit]
    exact Nat.pow_lt_pow_right (by decide) (by decide)

end NearWhole

/-- The chosen integer is a double with the same sign. -/
theorem toWhole_finite (hchoose : NearWhole choose) (negative : Bool) (m : Magnitude) :
    (finite negative m).toWhole choose =
      finite negative ⟨choose negative m.units * 2 ^ unitScale, hchoose.representable negative m⟩ :=
  ofUnits_one negative ⟨_, hchoose.representable negative m⟩

theorem toWhole_toWhole (hchoose : NearWhole choose) (x : Double) :
    (x.toWhole choose).toWhole choose = x.toWhole choose := by
  cases x with
  | finite negative m =>
    rw [toWhole_finite hchoose, toWhole_finite hchoose, finite.injEq, Magnitude.mk.injEq, hchoose.of_whole]
    exact ⟨rfl, rfl⟩
  | infinite _ | nan => rfl

theorem neg_neg (x : Double) : x.neg.neg = x := by
  cases x <;> simp [neg]

theorem neg_ofRatio (negative : Bool) (num den : Nat) :
    (ofRatio negative num den).neg = ofRatio (!negative) num den := by
  rw [ofRatio, ofRatio, ofUnits, ofUnits]
  split <;> rfl

/-- Choosing an integer and changing the sign is choosing the one of the other side of zero. -/
theorem neg_toWhole (choose : Bool → Nat → Nat) (x : Double) :
    (x.toWhole choose).neg = x.neg.toWhole fun negative => choose (!negative) := by
  cases x with
  | finite negative m =>
    rw [toWhole, neg_ofRatio, neg, toWhole, Bool.not_not]
  | infinite _ | nan => rfl

/-! ### Integers with a sign -/

theorem signedUnits_not (negative : Bool) (k : Nat) : signedUnits (!negative) k = -signedUnits negative k := by
  cases negative <;> simp

theorem natAbs_signedUnits (negative : Bool) (k : Nat) : (signedUnits negative k).natAbs = k := by
  cases negative <;> simp

theorem signedUnits_lt_zero (hk : k ≠ 0) (negative : Bool) : decide (signedUnits negative k < 0) = negative := by
  cases negative with
  | false => exact decide_eq_false (Int.not_lt.2 (Int.natCast_nonneg k))
  | true => exact decide_eq_true (by rw [signedUnits_true]; omega)

/-- Going away from zero below it is dividing with a floor. -/
theorem signedUnits_awayIf (negative : Bool) (units : Nat) :
    signedUnits negative (awayIf negative units) = signedUnits negative units / 2 ^ unitScale := by
  have hscale : ((2 ^ unitScale : Nat) : ℤ) = 2 ^ unitScale := Int.natCast_pow 2 unitScale
  have hwhole : (wholePart units : ℤ) = units / 2 ^ unitScale := by rw [wholePart, Int.natCast_ediv, hscale]
  have hdvd : (2 ^ unitScale : ℤ) ∣ units ↔ fractionUnits units = 0 := by
    rw [← hscale, Int.natCast_dvd_natCast, Nat.dvd_iff_mod_eq_zero, fractionUnits]
  cases negative with
  | false => rw [awayIf, Bool.false_and, if_neg Bool.false_ne_true, signedUnits_false, signedUnits_false, hwhole]
  | true =>
    have hsign : (2 ^ unitScale : ℤ).sign = 1 := Int.sign_eq_one_of_pos (pow_pos two_pos _)
    rw [signedUnits_true, signedUnits_true, Int.neg_ediv, hsign, ← hwhole, awayIf]
    by_cases hfraction : fractionUnits units = 0
    · rw [if_neg (by simp [hfraction]), if_pos (hdvd.2 hfraction), sub_zero]
    · rw [if_pos (by simpa using hfraction), if_neg (mt hdvd.1 hfraction), Nat.cast_succ, neg_add, sub_eq_add_neg]

theorem signedUnits_awayIf_not (negative : Bool) (units : Nat) :
    signedUnits negative (awayIf (!negative) units) = -(-signedUnits negative units / 2 ^ unitScale) := by
  rw [← signedUnits_not, ← signedUnits_awayIf, signedUnits_not, Int.neg_neg]

/-- Keeping the whole part is dividing and cutting off. -/
theorem signedUnits_wholePart (negative : Bool) (units : Nat) :
    signedUnits negative (wholePart units) = (signedUnits negative units).tdiv (2 ^ unitScale) := by
  have hwhole : (wholePart units : ℤ) = (units : ℤ).tdiv (2 ^ unitScale) := by
    rw [wholePart, Int.ofNat_tdiv, Int.natCast_pow]
    rfl
  cases negative with
  | false => exact hwhole
  | true => rw [signedUnits_true, signedUnits_true, Int.neg_tdiv, hwhole]

/-! ### Values -/

/-- A double of an integral value with a sign; a zero may have either sign. -/
def IsExactly (x : Double) (negative : Bool) (n : ℤ) : Prop :=
  ∃ m : Magnitude, x = finite negative m ∧ m.toRat negative = n

theorem isExactly_toWhole (hchoose : NearWhole choose) (negative : Bool) (m : Magnitude) :
    ((finite negative m).toWhole choose).IsExactly negative (signedUnits negative (choose negative m.units)) := by
  refine ⟨_, toWhole_finite hchoose negative m, ?_⟩
  rw [Magnitude.toRat, Nat.cast_mul, Nat.cast_pow, Nat.cast_ofNat, mul_div_cancel_right₀ _ (pow_pos two_pos _).ne']
  cases negative <;> simp [signed]

/-- A magnitude with a sign as a quotient of an integer. -/
theorem toRat_eq_intCast_div (negative : Bool) (m : Magnitude) :
    m.toRat negative = (signedUnits negative m.units : ℚ) / (2 ^ unitScale : Nat) := by
  rw [m.toRat_eq, Nat.cast_pow, Nat.cast_ofNat]

theorem floor_toRat (negative : Bool) (m : Magnitude) :
    ⌊m.toRat negative⌋ = signedUnits negative (awayIf negative m.units) := by
  rw [toRat_eq_intCast_div, Rat.floor_intCast_div_natCast, signedUnits_awayIf, Int.natCast_pow]
  rfl

theorem ceil_toRat (negative : Bool) (m : Magnitude) :
    ⌈m.toRat negative⌉ = signedUnits negative (awayIf (!negative) m.units) := by
  rw [toRat_eq_intCast_div, Rat.ceil_intCast_div_natCast, signedUnits_awayIf_not, Int.natCast_pow]
  rfl

/-- The integer part of a number towards zero: the greatest integer below a positive number, and the least one above a
negative number. -/
structure IsIntegerPart (v : ℚ) (n : ℤ) : Prop where
  greatest : 0 ≤ v → IsGreatest {k : ℤ | (k : ℚ) ≤ v} n
  least : v ≤ 0 → IsLeast {k : ℤ | v ≤ k} n

theorem isIntegerPart_toRat (negative : Bool) (m : Magnitude) :
    IsIntegerPart (m.toRat negative) (signedUnits negative (wholePart m.units)) := by
  have hpos : (0 : ℚ) ≤ m.units / 2 ^ unitScale := by positivity
  -- On either side of zero cutting off is what one of the other two functions does, and both agree at zero.
  suffices hparts : (0 ≤ m.toRat negative → ⌊m.toRat negative⌋ = signedUnits negative (wholePart m.units)) ∧
      (m.toRat negative ≤ 0 → ⌈m.toRat negative⌉ = signedUnits negative (wholePart m.units)) from
    ⟨fun h => hparts.1 h ▸ Int.gc_coe_floor.isGreatest_u, fun h => hparts.2 h ▸ Int.gc_ceil_coe.isLeast_l⟩
  cases negative with
  | false =>
    have hfloor : ⌊m.toRat false⌋ = signedUnits false (wholePart m.units) := floor_toRat false m
    have hside : 0 ≤ m.toRat false := hpos
    refine ⟨fun _ => hfloor, fun hle => ?_⟩
    rw [← hfloor, le_antisymm hle hside, Int.ceil_zero, Int.floor_zero]
  | true =>
    have hceil : ⌈m.toRat true⌉ = signedUnits true (wholePart m.units) := ceil_toRat true m
    have hside : m.toRat true ≤ 0 := neg_nonpos.2 hpos
    refine ⟨fun hge => ?_, fun _ => hceil⟩
    rw [← hceil, le_antisymm hside hge, Int.ceil_zero, Int.floor_zero]

/-- The integer nearest to a number; of two as near, the one farther from zero. -/
def IsNearestInteger (v : ℚ) (n : ℤ) : Prop :=
  ∀ k : ℤ, |(n : ℚ) - v| ≤ |(k : ℚ) - v| ∧ (k ≠ n → |(n : ℚ) - v| = |(k : ℚ) - v| → |k| < |n|)

theorem IsNearestInteger.neg (h : IsNearestInteger v n) : IsNearestInteger (-v) (-n) := by
  intro k
  obtain ⟨hle, htie⟩ := h (-k)
  have hself : |((-n : ℤ) : ℚ) - -v| = |(n : ℚ) - v| := by rw [Int.cast_neg, neg_sub_neg, abs_sub_comm]
  have hother : |(k : ℚ) - -v| = |((-k : ℤ) : ℚ) - v| := by
    rw [Int.cast_neg, ← abs_neg, neg_sub, sub_eq_add_neg, add_comm, sub_eq_add_neg]
  rw [hself, hother, abs_neg]
  refine ⟨hle, fun hne heq => ?_⟩
  rw [← abs_neg k]
  exact htie (fun hsame => hne (by omega)) heq

/-- An integer at most a half above a number that is not negative, and less than a half below it, is nearest. -/
theorem isNearestInteger_of_between (hv : 0 ≤ v) (hlow : n - 1 / 2 ≤ v) (hhigh : v < n + 1 / 2) :
    IsNearestInteger v n := by
  intro k
  have hhalf : |(n : ℚ) - v| ≤ 1 / 2 := abs_le.2 ⟨by linarith, by linarith⟩
  rcases lt_trichotomy k n with hlt | rfl | hgt
  · have hbelow : (k : ℚ) + 1 ≤ n := by exact_mod_cast hlt
    have hdistance : |(k : ℚ) - v| = v - k := by rw [abs_of_nonpos (by linarith), neg_sub]
    rw [hdistance]
    refine ⟨by linarith, fun _ heq => ?_⟩
    -- The two are as near only if the number is a half below the greater one, which is then positive.
    have hpos : (0 : ℚ) < n := by linarith
    have hnonneg : 0 ≤ k := by
      have hcast : (-1 : ℚ) < k := by linarith
      have hint : -1 < k := by exact_mod_cast hcast
      omega
    rwa [abs_of_nonneg hnonneg, abs_of_nonneg (hnonneg.trans hlt.le)]
  · exact ⟨le_rfl, fun hne => absurd rfl hne⟩
  · have habove : (n : ℚ) + 1 ≤ k := by exact_mod_cast hgt
    have hstrict : |(n : ℚ) - v| < |(k : ℚ) - v| := hhalf.trans_lt (by rw [abs_of_nonneg] <;> linarith)
    exact ⟨hstrict.le, fun _ heq => absurd heq hstrict.ne⟩

/-- The fraction decides between the whole part of a quotient and the next integer. -/
theorem isNearestInteger_of_fraction (whole : Nat) {fraction scale : Nat} (hless : fraction < scale) :
    IsNearestInteger ((whole * scale + fraction : Nat) / scale)
      (if scale ≤ 2 * fraction then whole + 1 else whole : Nat) := by
  have hscale : (0 : ℚ) < scale := Nat.cast_pos.2 (Nat.zero_lt_of_lt hless)
  have hparts : ((whole * scale + fraction : Nat) : ℚ) / scale = whole + fraction / scale := by
    rw [Nat.cast_add, Nat.cast_mul, add_div, mul_div_cancel_right₀ _ hscale.ne']
  have hhalf : scale ≤ 2 * fraction ↔ (1 / 2 : ℚ) ≤ fraction / scale := by
    rw [le_div_iff₀ hscale, ← Nat.cast_le (α := ℚ), Nat.cast_mul, Nat.cast_ofNat]
    constructor <;> intro h <;> linarith
  have hone : (fraction : ℚ) / scale < 1 := (div_lt_one hscale).2 (Nat.cast_lt.2 hless)
  have hnonneg : (0 : ℚ) ≤ fraction / scale := by positivity
  rw [hparts]
  generalize (fraction : ℚ) / scale = rest at hhalf hone hnonneg
  split
  · next h =>
    have hge := hhalf.1 h
    refine isNearestInteger_of_between (by positivity) ?_ ?_ <;> push_cast <;> linarith
  · next h =>
    have hlt := lt_of_not_ge (mt hhalf.2 h)
    refine isNearestInteger_of_between (by positivity) ?_ ?_ <;> push_cast <;> linarith

theorem isNearestInteger_toRat (negative : Bool) (m : Magnitude) :
    IsNearestInteger (m.toRat negative) (signedUnits negative (nearestWhole m.units)) := by
  have hnearest := isNearestInteger_of_fraction (wholePart m.units) (fractionUnits_lt m.units)
  rw [wholePart_mul_add, Nat.cast_pow, Nat.cast_ofNat] at hnearest
  cases negative with
  | false => exact hnearest
  | true => exact hnearest.neg

/-! ### Going through integers -/

/-- An integral result as a double; a zero gets the sign of the argument. -/
def signedZero (n : ℤ) (x : Double) : Except TooLargeForDouble Double :=
  if n = 0 then .ok (zero x.isNegative) else (Number.int n).toDouble

/-- A function that makes an integer of a finite double, and a double of the integer. -/
def byInteger (integer : Bool → Magnitude → Except TooLargeForDouble ℤ) : Double → Except TooLargeForDouble Double
  | finite negative m => do signedZero (← integer negative m) (finite negative m)
  | x => .ok x

/-- One half. -/
def half : Double :=
  ofRatio false 1 2

/-- The nearest integer: what is cut off is a double, and if it is at least one half, the integer part is moved away
from zero. -/
def nearestByHalf (negative : Bool) (m : Magnitude) : Except TooLargeForDouble ℤ := do
  let x : Number := .double (finite negative m)
  let kept := (signedUnits negative m.units).tdiv (2 ^ unitScale)
  let rest ← x.sub (.int kept)
  if Number.lt (.double half) rest.abs || Number.eqv (.double half) rest.abs then
    return if Number.lt (.int 0) x then kept + 1 else kept - 1
  return kept

/-- An integer that is a double becomes this double. -/
theorem toDouble_int (h : Representable (n.natAbs * 2 ^ unitScale)) :
    (Number.int n).toDouble = .ok (finite (n < 0) ⟨_, h⟩) := by
  have hexact : ofInt n = finite (n < 0) ⟨_, h⟩ := ofUnits_one (n < 0) ⟨_, h⟩
  rw [Number.toDouble, hexact]
  rfl

theorem signedZero_signedUnits (h : Representable (k * 2 ^ unitScale)) (m : Magnitude) :
    signedZero (signedUnits negative k) (finite negative m) = .ok (finite negative ⟨_, h⟩) := by
  rw [signedZero]
  by_cases hk : k = 0
  · subst hk
    rw [if_pos (by simp [signedUnits])]
    simp only [zero, isNegative, Nat.zero_mul]
  · have hne : signedUnits negative k ≠ 0 := by cases negative <;> simpa [signedUnits] using hk
    rw [if_neg hne, toDouble_int (by rwa [natAbs_signedUnits])]
    simp only [natAbs_signedUnits, signedUnits_lt_zero hk]

/-- A function that chooses an integer goes through it. -/
theorem byInteger_eq (hchoose : NearWhole choose) {integer : Bool → Magnitude → Except TooLargeForDouble ℤ}
    (h : ∀ negative m, integer negative m = .ok (signedUnits negative (choose negative m.units))) (x : Double) :
    byInteger integer x = .ok (x.toWhole choose) := by
  cases x with
  | finite negative m =>
    rw [byInteger, h, toWhole_finite hchoose]
    exact signedZero_signedUnits _ m
  | infinite _ | nan => rfl

/-- A sum that is a double is not rounded. -/
theorem add_of_representable {a b : Bool} {l h : Magnitude} (hsum : signedUnits a l.units + signedUnits b h.units = n)
    (hrepresentable : Representable n.natAbs) :
    ∃ c, (finite a l).add (finite b h) = finite c ⟨_, hrepresentable⟩ := by
  rw [add, hsum]
  by_cases hn : n = 0
  · subst hn
    exact ⟨a && b, if_pos rfl⟩
  · exact ⟨n < 0, (if_neg hn).trans (ofUnits_one (n < 0) ⟨_, hrepresentable⟩)⟩

theorem signedUnits_natAbs_mul (n : ℤ) (k : Nat) : signedUnits (n < 0) (n.natAbs * k) = n * k := by
  by_cases hn : n < 0
  · have habs : (n.natAbs : ℤ) = -n := Int.ofNat_natAbs_of_nonpos hn.le
    rw [decide_eq_true hn, signedUnits_true, Nat.cast_mul, habs, Int.neg_mul, Int.neg_neg]
  · have habs : (n.natAbs : ℤ) = n := Int.natAbs_of_nonneg (Int.not_lt.1 hn)
    rw [decide_eq_false hn, signedUnits_false, Nat.cast_mul, habs]

theorem signedUnits_wholePart_mul_add (negative : Bool) (units : Nat) :
    signedUnits negative (wholePart units) * (2 ^ unitScale : Nat) + signedUnits negative (fractionUnits units) =
      signedUnits negative units := by
  have hparts := congrArg (Nat.cast : Nat → ℤ) (wholePart_mul_add units)
  rw [Nat.cast_add, Nat.cast_mul] at hparts
  cases negative with
  | false => exact hparts
  | true => rw [signedUnits_true, signedUnits_true, signedUnits_true, ← hparts, Int.neg_mul, neg_add]

theorem sub_int_of_toDouble {y : Double} (h : (Number.int n).toDouble = .ok y) (x : Double) :
    Number.sub (.double x) (.int n) = .ok (.double (x.sub y)) := by
  have hx : (Number.double x).toDouble = .ok x := rfl
  simp only [Number.sub, Number.combine, hx, h, Outcome.ok_bind, Outcome.pure_eq]

/-- What is cut off is a double. -/
theorem sub_wholePart (negative : Bool) (m : Magnitude) :
    ∃ (sign : Bool) (rest : Magnitude), rest.units = fractionUnits m.units ∧
      Number.sub (.double (finite negative m)) (.int (signedUnits negative (wholePart m.units))) =
        .ok (.double (finite sign rest)) := by
  have hwhole := toDouble_int (n := signedUnits negative (wholePart m.units))
    (by rw [natAbs_signedUnits]; exact nearWhole_wholePart.representable negative m)
  have hfraction : Representable (signedUnits negative (fractionUnits m.units)).natAbs := by
    rw [natAbs_signedUnits]
    exact ⟨hasPrecision_fractionUnits m.representable.1, (Nat.mod_le ..).trans_lt m.representable.2⟩
  have hsum : signedUnits negative m.units - signedUnits negative (wholePart m.units) * (2 ^ unitScale : Nat) =
      signedUnits negative (fractionUnits m.units) := by
    rw [← signedUnits_wholePart_mul_add, add_sub_cancel_left]
  -- The fraction has no more digits than the magnitude, so the difference is not rounded.
  rw [← signedUnits_natAbs_mul, sub_eq_add_neg, ← signedUnits_not] at hsum
  obtain ⟨sign, hadd⟩ := add_of_representable (h := ⟨_, _⟩) hsum hfraction
  refine ⟨sign, ⟨_, hfraction⟩, natAbs_signedUnits _ _, ?_⟩
  rw [sub_int_of_toDouble hwhole, ← hadd]
  rfl

/-- One half has half of the units of one. -/
theorem exists_half : ∃ m : Magnitude, half = finite false m ∧ 2 * m.units = 2 ^ unitScale := by
  have hscale : 2 ^ unitScale = 2 ^ (unitScale - 1) * 2 := (Nat.two_pow_pred_mul_two (by decide)).symm
  have hlimit : 2 ^ (unitScale - 1) < unitLimit := by
    rw [unitLimit]
    exact Nat.pow_lt_pow_right (by decide) (by decide)
  have hrepresentable : Representable (2 ^ (unitScale - 1)) :=
    ⟨⟨1, unitScale - 1, by decide, (Nat.one_mul _).symm⟩, hlimit⟩
  refine ⟨⟨_, hrepresentable⟩, ?_, ?_⟩
  · rw [half, ofRatio, Nat.one_mul, hscale]
    exact ofUnits_units false ⟨_, hrepresentable⟩ (by decide)
  · rw [hscale, Nat.mul_comm]

/-- Comparing a finite double with one half. -/
theorem half_le_iff (negative : Bool) (m : Magnitude) :
    (Number.lt (.double half) (Number.double (finite negative m)).abs ||
      Number.eqv (.double half) (Number.double (finite negative m)).abs) = true ↔ 2 ^ unitScale ≤ 2 * m.units := by
  obtain ⟨h, hhalf, hunits⟩ := exists_half
  have hplaces : (Number.lt (.double half) (Number.double (finite negative m)).abs ||
      Number.eqv (.double half) (Number.double (finite negative m)).abs) =
        (decide ((h.units : ℤ) < m.units) || Place.units h.units == Place.units m.units) := by
    rw [hhalf]
    rfl
  rw [hplaces, Bool.or_eq_true, decide_eq_true_eq, beq_iff_eq, Place.units.injEq]
  omega

theorem zero_lt_finite_iff (negative : Bool) (m : Magnitude) :
    Number.lt (.int 0) (.double (finite negative m)) = true ↔ 0 < signedUnits negative m.units := by
  have hplaces : Number.lt (.int 0) (.double (finite negative m)) =
      decide (0 * 2 ^ unitScale < signedUnits negative m.units) := rfl
  rw [hplaces, decide_eq_true_iff, Int.zero_mul]

theorem nearestByHalf_eq (negative : Bool) (m : Magnitude) :
    nearestByHalf negative m = .ok (signedUnits negative (nearestWhole m.units)) := by
  obtain ⟨sign, rest, hunits, hrest⟩ := sub_wholePart negative m
  have hhalf := half_le_iff sign rest
  have hpositive := zero_lt_finite_iff negative m
  rw [hunits] at hhalf
  rw [nearestByHalf, ← signedUnits_wholePart, hrest, Outcome.ok_bind, nearestWhole]
  by_cases hlarge : 2 ^ unitScale ≤ 2 * fractionUnits m.units
  · have hunits : 0 < m.units := by
      have hscale := Nat.two_pow_pos unitScale
      have hle : fractionUnits m.units ≤ m.units := Nat.mod_le ..
      omega
    rw [if_pos (hhalf.2 hlarge), if_pos hlarge]
    cases negative with
    | false =>
      rw [if_pos (hpositive.2 (Int.natCast_pos.2 hunits))]
      rfl
    | true =>
      rw [if_neg (mt hpositive.1 (by rw [signedUnits_true]; omega)), signedUnits_true, signedUnits_true, Nat.cast_succ,
        neg_add, ← sub_eq_add_neg]
      rfl
  · rw [if_neg (mt hhalf.1 hlarge), if_neg hlarge]
    rfl

/-! ### The four functions -/

section Finite

variable (negative : Bool) (m : Magnitude)

theorem exists_floor : ∃ n, IsGreatest {k : ℤ | (k : ℚ) ≤ m.toRat negative} n ∧
    (finite negative m).floor.IsExactly negative n :=
  ⟨_, floor_toRat negative m ▸ Int.gc_coe_floor.isGreatest_u,
    isExactly_toWhole (nearWhole_awayIf fun negative => negative) negative m⟩

theorem exists_ceil : ∃ n, IsLeast {k : ℤ | m.toRat negative ≤ k} n ∧ (finite negative m).ceil.IsExactly negative n :=
  ⟨_, ceil_toRat negative m ▸ Int.gc_ceil_coe.isLeast_l,
    isExactly_toWhole (nearWhole_awayIf fun negative => !negative) negative m⟩

theorem exists_trunc : ∃ n, IsIntegerPart (m.toRat negative) n ∧ (finite negative m).trunc.IsExactly negative n :=
  ⟨_, isIntegerPart_toRat negative m, isExactly_toWhole nearWhole_wholePart negative m⟩

theorem exists_round : ∃ n, IsNearestInteger (m.toRat negative) n ∧ (finite negative m).round.IsExactly negative n :=
  ⟨_, isNearestInteger_toRat negative m, isExactly_toWhole nearWhole_nearestWhole negative m⟩

end Finite

/-- Choosing an integer is idempotent, and leaves alone what is not finite. -/
theorem toWhole_keeps (hchoose : NearWhole choose) :
    (∀ x, toWhole choose (toWhole choose x) = toWhole choose x) ∧
      (∀ negative, toWhole choose (infinite negative) = infinite negative) ∧ toWhole choose nan = nan :=
  ⟨toWhole_toWhole hchoose, fun _ => rfl, rfl⟩

/-- **Rounding is exact.** For every finite double, the floor is the greatest integer that is not above it, the ceiling
the least one that is not below it, the truncation the integer part towards zero and the rounding the nearest integer
with halves away from zero; each is a double of exactly this value with the sign of the argument. So the ceiling is the
floor on the other side of zero, rounding and truncation do not depend on the side, and doing any of the four twice is
doing it once; infinities and the value that is not a number are left as they are. Each function goes through the
integer that division and comparison with one half give, and no step of that fails. -/
theorem rounding_exact :
    (∀ (negative : Bool) (m : Magnitude),
      (∃ n, IsGreatest {k : ℤ | (k : ℚ) ≤ m.toRat negative} n ∧ (finite negative m).floor.IsExactly negative n) ∧
        (∃ n, IsLeast {k : ℤ | m.toRat negative ≤ k} n ∧ (finite negative m).ceil.IsExactly negative n) ∧
        (∃ n, IsIntegerPart (m.toRat negative) n ∧ (finite negative m).trunc.IsExactly negative n) ∧
        (∃ n, IsNearestInteger (m.toRat negative) n ∧ (finite negative m).round.IsExactly negative n)) ∧
      (∀ x : Double, x.ceil = x.neg.floor.neg ∧ x.neg.round = x.round.neg ∧ x.neg.trunc = x.trunc.neg) ∧
      (∀ f ∈ [floor, ceil, trunc, round],
        (∀ x, f (f x) = f x) ∧ (∀ negative, f (infinite negative) = infinite negative) ∧ f nan = nan) ∧
      (∀ x : Double,
        byInteger (fun negative m => .ok (signedUnits negative m.units / 2 ^ unitScale)) x = .ok x.floor ∧
          byInteger (fun negative m => .ok (-(-signedUnits negative m.units / 2 ^ unitScale))) x = .ok x.ceil ∧
          byInteger (fun negative m => .ok ((signedUnits negative m.units).tdiv (2 ^ unitScale))) x = .ok x.trunc ∧
          byInteger nearestByHalf x = .ok x.round) := by
  have hfloor := nearWhole_awayIf fun negative => negative
  have hceil := nearWhole_awayIf fun negative => !negative
  refine ⟨fun negative m => ⟨exists_floor negative m, exists_ceil negative m, exists_trunc negative m,
    exists_round negative m⟩, fun x => ⟨?_, ?_, ?_⟩, fun f hf => ?_, fun x => ⟨?_, ?_, ?_, ?_⟩⟩
  · rw [floor, neg_toWhole, neg_neg, ceil]
  · rw [round, round, neg_toWhole]
  · rw [trunc, trunc, neg_toWhole]
  · simp only [List.mem_cons, List.not_mem_nil, or_false] at hf
    rcases hf with rfl | rfl | rfl | rfl
    · exact toWhole_keeps hfloor
    · exact toWhole_keeps hceil
    · exact toWhole_keeps nearWhole_wholePart
    · exact toWhole_keeps nearWhole_nearestWhole
  · exact byInteger_eq hfloor (fun _ _ => by rw [signedUnits_awayIf]) x
  · exact byInteger_eq hceil (fun _ _ => by rw [signedUnits_awayIf_not]) x
  · exact byInteger_eq nearWhole_wholePart (fun _ _ => by rw [signedUnits_wholePart]) x
  · exact byInteger_eq nearWhole_nearestWhole nearestByHalf_eq x

/-- The least double above minus one half is a zero with its sign when it is rounded. -/
example : (ofRatio true (2 ^ 53 - 1) (2 ^ 54)).round = zero true := by decide +kernel

end Primitives.Double
