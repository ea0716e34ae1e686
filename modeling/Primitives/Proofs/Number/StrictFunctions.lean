import Primitives.Proofs.Number.MachineNumbers

/-!
# Strict functions and their guards

A strict function fails where its value would be no number or a pole, and a strict growing function fails where
the value of a finite argument exceeds all doubles. Strict functions take doubles, so that an integer that is
too large for a double fails as well. Each function of numbers is a strict function behind guards, which ask for
the argument first or replace a failure by a value. The guards let no failure through but that of rounding.

## Main definitions

* `StrictFault`: failures of strict functions.
* `Strict.restricted`, `Strict.bounded`: strict functions of one double, and `Strict.pow`, `Strict.fmod`.
* `Guarded.asking`, `Guarded.logarithm`, …: strict functions behind guards.

## Main results

* `Number.compare_toDouble`: rounding keeps the side of zero, one and minus one.
* `Guarded.agrees_asking`, `Guarded.agrees_logarithm`, …: guarded strict functions agree with functions of numbers.
-/

namespace Primitives

/-! ### Comparisons and rounding -/

/-- A signed magnitude lies on the same side of zero, one and minus one as the integer that it is rounded from.
One has `scale` units. -/
theorem Double.signedUnits_compare {n c : Int} {units : Nat} (scale : Nat)
    (hone : n.natAbs ≤ 1 → units = n.natAbs * scale)
    (htwo : 2 ≤ n.natAbs → scale < units) (hscale : 0 < scale) (hc : c.natAbs ≤ 1) :
    (signedUnits (n < 0) units < c * scale ↔ n < c) ∧ (c * scale < signedUnits (n < 0) units ↔ c < n) := by
  have hbounds : -(scale : Int) ≤ c * scale ∧ c * scale ≤ scale := by
    obtain rfl | rfl | rfl : c = -1 ∨ c = 0 ∨ c = 1 := by omega
    all_goals omega
  by_cases hsmall : n.natAbs ≤ 1
  · have hunits : signedUnits (n < 0) units = n * scale := by
      rw [hone hsmall]
      obtain rfl | rfl | rfl : n = -1 ∨ n = 0 ∨ n = 1 := by omega
      all_goals simp [signedUnits]
    rw [hunits]
    exact ⟨Int.mul_lt_mul_right (by omega), Int.mul_lt_mul_right (by omega)⟩
  · have hlarge := htwo (by omega)
    by_cases hneg : n < 0 <;> simp only [signedUnits, hneg, decide_true, decide_false, if_true, Bool.false_eq_true,
      if_false] <;> omega

namespace Number

variable {x : Number} {a : Double} {n c : Int}

/-- An integer with a nearest double is rounded to a magnitude with its sign. -/
theorem toDouble_int_eq_ok (h : (int n).toDouble = .ok a) :
    ∃ hlimit : nearestUnits (n.natAbs * 2 ^ unitScale) 1 < unitLimit,
      a = .finite (n < 0) ⟨_, hasPrecision_nearestUnits _ _, hlimit⟩ := by
  rw [toDouble, Double.ofInt, Double.ofRatio, Double.ofUnits] at h
  split at h
  · next hlimit => exact ⟨hlimit, (Except.ok.inj h).symm⟩
  · cases h

theorem nearestUnits_scaled {k : Nat} (h : k < 2 ^ precision) (scale : Nat) :
    nearestUnits (k * 2 ^ scale) 1 = k * 2 ^ scale := by
  have hprecision : HasPrecision (k * 2 ^ scale) := ⟨k, scale, h, rfl⟩
  simpa using nearestUnits_of_hasPrecision hprecision Nat.one_pos

theorem lt_nearestUnits_scaled {k : Nat} (h : 2 ≤ k) (scale : Nat) :
    2 ^ scale < nearestUnits (k * 2 ^ scale) 1 := by
  have hpow : 2 ^ (scale + 1) ≤ k * 2 ^ scale / 1 := by
    rw [Nat.div_one, Nat.pow_succ, Nat.mul_comm]
    exact Nat.mul_le_mul_right _ h
  have hne : k * 2 ^ scale / 1 ≠ 0 := (Nat.two_pow_pos _).trans_le hpow |>.ne'
  have hlog : scale + 1 ≤ (k * 2 ^ scale / 1).log2 := (Nat.le_log2 hne).2 hpow
  calc 2 ^ scale < 2 ^ (scale + 1) := Nat.pow_lt_pow_right (by decide) (Nat.lt_succ_self scale)
    _ ≤ 2 ^ (k * 2 ^ scale / 1).log2 := Nat.pow_le_pow_right (by decide) hlog
    _ ≤ nearestUnits (k * 2 ^ scale) 1 := two_pow_log2_le_nearestUnits hne

/-- Rounding keeps the side of zero, one and minus one on which a number lies. -/
theorem compare_toDouble (h : x.toDouble = .ok a) (hc : c.natAbs ≤ 1) :
    x.lt (int c) = (double a).lt (int c) ∧ (int c).lt x = (int c).lt (double a) ∧
      x.eqv (int c) = (double a).eqv (int c) := by
  cases x with
  | double x =>
    obtain rfl := Except.ok.inj h
    exact ⟨rfl, rfl, rfl⟩
  | int n =>
    obtain ⟨hlimit, rfl⟩ := toDouble_int_eq_ok h
    have hcast : ((2 ^ unitScale : Nat) : Int) = 2 ^ unitScale := Int.natCast_pow 2 unitScale
    obtain ⟨hbelow, habove⟩ := Double.signedUnits_compare (n := n) (2 ^ unitScale)
      (fun hn => nearestUnits_scaled (Nat.lt_of_le_of_lt hn (by decide)) _)
      (fun hn => lt_nearestUnits_scaled hn _) (Nat.two_pow_pos _) hc
    have hpos : (0 : Int) < 2 ^ unitScale := hcast ▸ Int.natCast_pos.2 (Nat.two_pow_pos _)
    rw [hcast] at hbelow habove
    have hlt : n * 2 ^ unitScale < c * 2 ^ unitScale ↔ n < c := Int.mul_lt_mul_right hpos
    have hgt : c * 2 ^ unitScale < n * 2 ^ unitScale ↔ c < n := Int.mul_lt_mul_right hpos
    refine ⟨decide_eq_decide.2 (hlt.trans hbelow.symm), decide_eq_decide.2 (hgt.trans habove.symm), ?_⟩
    rw [Bool.eq_iff_iff]
    refine (beq_iff_eq (a := Place.ofInt n)).trans (Iff.trans ?_
      (beq_iff_eq (a := Place.units (Double.signedUnits (n < 0) _))).symm)
    simp only [Place.ofInt, Place.units.injEq]
    omega

theorem toDouble_abs (h : x.toDouble = .ok a) : x.abs.toDouble = .ok a.abs := by
  cases x with
  | double x =>
    obtain rfl := Except.ok.inj h
    rfl
  | int n =>
    obtain ⟨hlimit, rfl⟩ := toDouble_int_eq_ok h
    have hnonneg : decide ((n.natAbs : Int) < 0) = false := decide_eq_false (by omega)
    rw [abs, toDouble, Double.ofInt, Double.ofRatio, Int.natAbs_natCast, hnonneg, Double.ofUnits, dif_pos hlimit]
    rfl

end Number

/-! ### Strict functions -/

/-- A failure of a strict function. -/
inductive StrictFault where
  | outsideDomain
  | overflow
deriving DecidableEq

namespace Strict

open Number

/-- A function that fails outside of its domain. -/
def restricted (outside : Double → Bool) (f : Double → Double) (x : Double) : Except StrictFault Double :=
  if outside x then .error .outsideDomain else .ok (f x)

/-- A function that fails if its value exceeds all doubles and its argument does not. -/
def bounded (f : Double → Double) (x : Double) : Except StrictFault Double :=
  if x.isFinite && (f x).isInfinite then .error .overflow else .ok (f x)

/-- A function that gives an integer, which is made a double: only finite arguments have one. -/
def whole (f : Double → Double) (x : Double) : Except StrictFault Double :=
  if x.isFinite then bounded f x else .error .outsideDomain

/-- The remainder fails for infinite dividends and for zero as divisor, unless the other one is no number. -/
def fmod (x y : Double) : Except StrictFault Double :=
  if !x.isNaN && !y.isNaN && (x.isInfinite || y.isZero) then .error .outsideDomain else .ok (x.remainder y)

/-- Powers of finite arguments fail at the pole, for a negative base and an exponent that is no integer, and if
they exceed all doubles. -/
def pow (x y : Double) : Except StrictFault Double :=
  if x.isFinite && y.isFinite then
    if (x.isZero && (double y).lt (int 0)) || ((double x).lt (int 0) && !y.isInteger) then .error .outsideDomain
    else bounded (Double.pow · y) x
  else .ok (Double.pow x y)

end Strict

/-- The double that a strict function takes of a number. -/
def Number.rounded (x : Number) : Except StrictFault Double :=
  x.toDouble.mapError fun _ => .overflow

/-! ### Guards -/

namespace Guarded

open Number

variable (strict : Double → Except StrictFault Double)

/-- A guard that asks for a number before it is rounded. -/
def asking (outside : Number → Bool) (x : Number) : Except StrictFault Double := do
  if outside x then return .nan
  strict (← x.rounded)

/-- A guard that asks for a rounded number. -/
def askingRounded (outside : Double → Bool) (x : Number) : Except StrictFault Double := do
  let a ← x.rounded
  if outside a then return .nan
  strict a

/-- The guard of logarithms: there is no number below the pole. -/
def logarithm (pole : Int) (x : Number) : Except StrictFault Double := do
  let a ← x.rounded
  if a.isNaN then return .nan
  if x.eqv (int pole) then return .infinite true
  if x.lt (int pole) then return .nan
  strict a

/-- A guard that replaces an overflow. -/
def recovering (instead : Number → Except StrictFault Double) (x : Number) : Except StrictFault Double :=
  match (do strict (← x.rounded)) with
  | .error .overflow => instead x
  | r => r

/-- The infinity with the sign of a number. -/
def signedInfinity (x : Number) : Except StrictFault Double := do
  return .infinite (← x.rounded).isNegative

/-- The guard of the area tangent, which has two poles. -/
def atanh (x : Number) : Except StrictFault Double := do
  if x.abs.eqv (int 1) then signedInfinity x
  else if x.abs.exceeds (int 1) then return .nan
  else strict (← x.rounded)

/-- A guard that gives back what is not finite. -/
def whole (x : Number) : Except StrictFault Double := do
  let a ← x.rounded
  if a.isFinite then strict a else return a

/-- The guard of remainders. -/
def fmod (strict : Double → Double → Except StrictFault Double) (x y : Number) : Except StrictFault Double := do
  let a ← x.rounded
  if a.isInfinite || y.eqv (int 0) then return .nan
  strict a (← y.rounded)

/-- The guard of powers: a failure is a pole, an overflow, or means that there is no number. -/
def pow (strict : Double → Double → Except StrictFault Double) (x y : Number) : Except StrictFault Double :=
  match (do strict (← x.rounded) (← y.rounded)) with
  | .error .outsideDomain =>
    if x.eqv (int 0) && y.lt (int 0) then do
      if (← y.rounded).isOddInteger then signedInfinity x else return .infinite false
    else .ok .nan
  | .error .overflow =>
    if x.lt (int 0) then do return .infinite (← y.rounded).isOddInteger
    else .ok (.infinite false)
  | r => r

/-! ### Agreement -/

/-- A guarded strict function fails as a function of numbers does: only for integers that are too large. -/
def Agrees (guarded : Number → Except StrictFault Double) (f : Number → Except TooLargeForDouble Double) : Prop :=
  ∀ x, guarded x = (f x).mapError fun _ => .overflow

variable {x : Number} {a : Double}

theorem rounded_of_ok (h : x.toDouble = .ok a) : x.rounded = .ok a := by
  rw [rounded, h, Outcome.mapError_ok]

theorem rounded_of_error {fault : TooLargeForDouble} (h : x.toDouble = .error fault) :
    x.rounded = .error .overflow := by
  rw [rounded, h, Outcome.mapError_error]

/-- Agreement with a function that rounds first is told by rounded numbers. -/
theorem agrees_applied {guarded : Number → Except StrictFault Double} {f : Double → Double}
    (herror : ∀ x, x.rounded = .error .overflow → guarded x = .error .overflow)
    (hok : ∀ x a, x.toDouble = .ok a → guarded x = .ok (f a)) : Agrees guarded (·.applied f) := by
  intro x
  dsimp only
  cases h : x.toDouble with
  | error fault => rw [herror x (rounded_of_error h), applied, h]; rfl
  | ok a => rw [hok x a h, applied, h]; rfl

/-- A guard that asks for a number keeps a strict function within its domain, if rounding does not change the
answer. -/
theorem agrees_asking (outside : Number → Bool) (f : Double → Double)
    (hround : ∀ x a, x.toDouble = .ok a → outside x = outside (double a)) :
    Agrees (asking (Strict.restricted (fun a => outside (double a)) f) outside)
      fun x => if outside x then .ok .nan else x.applied f := by
  intro x
  dsimp only
  rw [asking]
  cases houtside : outside x with
  | true => rfl
  | false =>
    cases h : x.toDouble with
    | error fault => simp [rounded_of_error h, applied, h]
    | ok a =>
      have hdouble : outside (double a) = false := (hround x a h).symm.trans houtside
      simp [rounded_of_ok h, applied, h, Strict.restricted, hdouble]

theorem agrees_askingRounded {outside : Double → Bool} {f : Double → Double}
    (hf : ∀ a, outside a → f a = .nan) :
    Agrees (askingRounded (Strict.restricted outside f) outside) (·.applied f) := by
  refine agrees_applied (fun x h => by rw [askingRounded, h]; rfl) fun x a h => ?_
  cases houtside : outside a with
  | true => simp [askingRounded, rounded_of_ok h, houtside, hf a houtside]
  | false => simp [askingRounded, rounded_of_ok h, houtside, Strict.restricted]

/-- The arguments without a logarithm. -/
def atOrBelow (pole : Int) (a : Double) : Bool :=
  (double a).lt (int pole) || (double a).eqv (int pole)

/-- The guard of logarithms keeps a strict function within its domain. -/
theorem agrees_logarithm {pole : Int} (hpole : pole.natAbs ≤ 1) {f : Double → Double} (hnan : f .nan = .nan)
    (heqv : ∀ a, (double a).eqv (int pole) → f a = .infinite true)
    (hlt : ∀ a, (double a).lt (int pole) → f a = .nan) :
    Agrees (logarithm (Strict.restricted (atOrBelow pole) f) pole) (·.applied f) := by
  refine agrees_applied (fun x h => by rw [logarithm, h]; rfl) fun x a h => ?_
  obtain ⟨hltx, -, heqvx⟩ := compare_toDouble h hpole
  rw [logarithm, rounded_of_ok h, Outcome.ok_bind, hltx, heqvx]
  cases ha : a.isNaN with
  | true =>
    cases a with
    | nan => simp [hnan]
    | _ => cases ha
  | false =>
    cases hpoleEqv : (double a).eqv (int pole) with
    | true => simp [heqv a hpoleEqv]
    | false =>
      cases hpoleLt : (double a).lt (int pole) with
      | true => simp [hlt a hpoleLt]
      | false => simp [Strict.restricted, atOrBelow, hpoleEqv, hpoleLt]

/-- A double that is not infinite, or is the infinity with a sign. -/
def OverflowsTo (negative : Bool) (a : Double) : Prop :=
  a.isInfinite → a = .infinite negative

theorem recovering_of_ok {instead : Number → Except StrictFault Double} {f : Double → Double}
    (h : x.toDouble = .ok a) (hf : a.isFinite → (f a).isInfinite → instead x = .ok (f a)) :
    recovering (Strict.bounded f) instead x = .ok (f a) := by
  rw [recovering, rounded_of_ok h, Outcome.ok_bind, Strict.bounded]
  by_cases hfinite : a.isFinite ∧ (f a).isInfinite
  · simp [hfinite, hf hfinite.1 hfinite.2]
  · rw [if_neg (by simpa using hfinite)]

/-- An overflow of either kind is replaced by infinity. -/
theorem agrees_recovering {f : Double → Double}
    (hf : ∀ negative m, OverflowsTo false (f (.finite negative m))) :
    Agrees (recovering (Strict.bounded f) fun _ => .ok (.infinite false)) fun x => .ok (orOverflow f x) := by
  intro x
  dsimp only
  rw [orOverflow]
  cases h : x.toDouble with
  | error fault =>
    rw [recovering, rounded_of_error h]
    rfl
  | ok a =>
    refine recovering_of_ok h fun hfinite hinfinite => ?_
    cases a with
    | finite negative m => rw [hf negative m hinfinite]
    | infinite _ | nan => cases hfinite

theorem signedInfinity_of_ok (h : x.toDouble = .ok a) : signedInfinity x = .ok (.infinite a.isNegative) := by
  rw [signedInfinity, rounded_of_ok h]
  rfl

/-- An overflow of a strict function is replaced by an infinity with the sign of the argument. -/
theorem agrees_recovering_signed {f : Double → Double}
    (hf : ∀ negative m, OverflowsTo negative (f (.finite negative m))) :
    Agrees (recovering (Strict.bounded f) signedInfinity) (·.applied f) := by
  refine agrees_applied (fun x h => by rw [recovering, signedInfinity, h]; rfl) fun x a h => ?_
  refine recovering_of_ok h fun hfinite hinfinite => ?_
  cases a with
  | finite negative m =>
    rw [signedInfinity_of_ok h, hf negative m hinfinite]
    rfl
  | infinite _ | nan => cases hfinite

theorem agrees_whole {f : Double → Double} (hfinite : ∀ a, a.isFinite → (f a).isFinite)
    (hrest : ∀ a, a.isFinite = false → f a = a) : Agrees (whole (Strict.whole f)) (·.applied f) := by
  refine agrees_applied (fun x h => by rw [whole, h]; rfl) fun x a h => ?_
  rw [whole, rounded_of_ok h, Outcome.ok_bind]
  cases ha : a.isFinite with
  | false => simp [hrest a ha]
  | true =>
    have hinfinite : (f a).isInfinite = false := by
      have hvalue := hfinite a ha
      cases hfa : f a with
      | finite _ _ => rfl
      | infinite _ => rw [hfa] at hvalue; cases hvalue
      | nan => rfl
    simp [Strict.whole, Strict.bounded, ha, hinfinite]

end Guarded

end Primitives
