import Mathlib.Algebra.Order.Ring.Int
import Mathlib.Data.Int.GCD
import Mathlib.Data.Nat.Prime.Basic
import Mathlib.Data.Nat.Sqrt
import Primitives.Number.Integer

/-!
# Divisors, multiples and primes

The greatest common divisor of two integers is told by their absolute values, and the quotient of one integer by it is
exact, so that the floor in its division is never reached: the product of this quotient and the other integer has the
absolute value of the least common multiple, whatever the signs are.

An odd number is tried by the odd numbers from three on. *Trial division* keeps an invariant: no candidate so far, and so
no number below the next candidate, divides the number. It ends with a candidate that divides the number, or with one
whose square exceeds it; in the second case the number is prime, since the least divisor of a composite number has a
square that does not exceed it.

## Main definitions

* `Integer.Trial`: runs of trial division, with the number of candidates tried and the answer.
* `Integer.NoDivisorBelow`: the invariant of trial division.

## Main results

* `Integer.gcd_lcm_laws`: common divisors and common multiples.
* `Integer.exists_trial`, `Integer.Trial.unique`, `Integer.Trial.tried_le`: trial division ends.
* `Integer.Trial.answer_iff`: its answer.
* `Integer.isPrime_decides`: primality of integers.
-/

namespace Primitives.Integer

/-! ### Common divisors and multiples -/

section CommonDivisors

variable {a b : ℤ}

theorem gcd_eq (a b : ℤ) : gcd a b = (Int.gcd a b : ℤ) :=
  rfl

/-- Dividing an integer by a common divisor leaves nothing over. -/
theorem natAbs_fdiv_gcd (a b : ℤ) : (a.fdiv (gcd a b)).natAbs = a.natAbs / Int.gcd a b := by
  rw [gcd_eq, Int.fdiv_eq_ediv_of_nonneg _ (Int.natCast_nonneg _), Int.natAbs_ediv_of_dvd (Int.gcd_dvd_left ..),
    Int.natAbs_natCast]

theorem lcm_eq (a b : ℤ) : lcm a b = (Int.lcm a b : ℤ) := by
  rw [lcm]
  split
  · next hzero =>
    rcases hzero with rfl | rfl <;> simp
  · rw [Int.natAbs_mul, natAbs_fdiv_gcd, Int.lcm, Nat.lcm_eq_mul_div, Int.gcd, Nat.div_mul_right_comm (Nat.gcd_dvd_left ..)]

/-- **The greatest common divisor and the least common multiple.** For any two integers, the one is a divisor of both
that is not negative and that every common divisor divides, the other one a multiple of both that is not negative and
that divides every common multiple, and their product is the absolute value of the product of the integers. -/
theorem gcd_lcm_laws (a b : ℤ) :
    (0 ≤ gcd a b ∧ gcd a b ∣ a ∧ gcd a b ∣ b ∧ ∀ d : ℤ, d ∣ a → d ∣ b → d ∣ gcd a b) ∧
      (0 ≤ lcm a b ∧ a ∣ lcm a b ∧ b ∣ lcm a b ∧ ∀ m : ℤ, a ∣ m → b ∣ m → lcm a b ∣ m) ∧
      gcd a b * lcm a b = |a * b| := by
  rw [lcm_eq, gcd_eq]
  refine ⟨⟨Int.natCast_nonneg _, Int.gcd_dvd_left .., Int.gcd_dvd_right .., fun d => Int.dvd_coe_gcd⟩,
    ⟨Int.natCast_nonneg _, Int.dvd_lcm_left .., Int.dvd_lcm_right .., fun m => Int.coe_lcm_dvd⟩, ?_⟩
  rw [← Nat.cast_mul, Int.gcd_mul_lcm, Int.abs_eq_natAbs, Int.natAbs_mul]

example : gcd (-12) 18 = 6 ∧ lcm (-12) 18 = 36 ∧ gcd 0 0 = 0 ∧ lcm (-7) 0 = 0 := by
  decide

end CommonDivisors

/-! ### Trial division -/

/-- A run of trial division of `n` from a candidate on: how many candidates are tried and do not divide `n`, and
whether `n` passes. -/
inductive Trial (n : ℕ) : (candidate tried : ℕ) → (passes : Bool) → Prop
  | passed {i : ℕ} (hsquare : n < i * i) : Trial n i 0 true
  | divided {i : ℕ} (hsquare : i * i ≤ n) (hdvd : n % i = 0) : Trial n i 0 false
  | next {i tried : ℕ} {passes : Bool} (hsquare : i * i ≤ n) (hdvd : n % i ≠ 0)
      (rest : Trial n (i + 2) tried passes) : Trial n i (tried + 1) passes

variable {n i tried : ℕ} {passes : Bool}

theorem exists_trial (hi : 0 < i) : ∃ tried, Trial n i tried (hasNoOddDivisorFrom n i) := by
  fun_induction hasNoOddDivisorFrom n i with
  | case1 i h hdvd => exact ⟨0, .divided h.1 hdvd⟩
  | case2 i h hdvd ih =>
    obtain ⟨tried, hrest⟩ := ih (by omega)
    exact ⟨tried + 1, .next h.1 hdvd hrest⟩
  | case3 i h => exact ⟨0, .passed (by omega)⟩

namespace Trial

/-- There is only one run from a candidate on. -/
theorem unique {tried' : ℕ} {passes' : Bool} (h : Trial n i tried passes) (h' : Trial n i tried' passes') :
    tried' = tried ∧ passes' = passes := by
  induction h generalizing tried' with
  | passed hsquare =>
    cases h' with
    | passed => exact ⟨rfl, rfl⟩
    | divided hle | next hle => omega
  | divided hsquare hdvd =>
    cases h' with
    | divided => exact ⟨rfl, rfl⟩
    | passed hlt => omega
    | next hle hrest => exact absurd hdvd hrest
  | next hsquare hdvd rest ih =>
    cases h' with
    | next hle hrest hrun =>
      obtain ⟨rfl, rfl⟩ := ih hrun
      exact ⟨rfl, rfl⟩
    | passed hlt => omega
    | divided hle hzero => exact absurd hzero hdvd

/-- The candidates that are tried do not exceed the root of the number. -/
theorem tried_le (h : Trial n i tried passes) : tried = 0 ∨ i + 2 * tried ≤ n.sqrt + 2 := by
  induction h with
  | passed | divided => exact .inl rfl
  | next hsquare hdvd rest ih =>
    have hroot := Nat.le_sqrt.2 hsquare
    omega

end Trial

/-- No number above one and below `i` divides `n`. -/
def NoDivisorBelow (n i : ℕ) : Prop :=
  ∀ d, 1 < d → d < i → ¬ d ∣ n

namespace NoDivisorBelow

theorem three (hodd : ¬ 2 ∣ n) : NoDivisorBelow n 3 := by
  intro d hone hlt
  obtain rfl : d = 2 := by omega
  exact hodd

/-- A candidate that does not divide an odd number brings the next odd candidate into reach. -/
theorem add_two (h : NoDivisorBelow n i) (hodd : ¬ 2 ∣ n) (hi : i % 2 = 1) (hdvd : n % i ≠ 0) :
    NoDivisorBelow n (i + 2) := by
  intro d hone hlt hd
  rcases Nat.lt_trichotomy d i with hbelow | rfl | habove
  · exact h d hone hbelow hd
  · exact hdvd (Nat.mod_eq_zero_of_dvd hd)
  · obtain rfl : d = i + 1 := by omega
    exact hodd (Nat.dvd_trans (by omega) hd)

/-- A composite number has a divisor whose square does not exceed it. -/
theorem prime (h : NoDivisorBelow n i) (hn : 2 ≤ n) (hsquare : n < i * i) : n.Prime := by
  by_contra hcomposite
  have hleast : n.minFac * n.minFac ≤ n := by
    rw [← Nat.pow_two]
    exact Nat.minFac_sq_le_self (by omega) hcomposite
  have hbelow : n.minFac < i := Nat.mul_self_lt_mul_self_iff.1 (hleast.trans_lt hsquare)
  exact h _ (Nat.minFac_prime (by omega)).one_lt hbelow n.minFac_dvd

end NoDivisorBelow

/-- An odd number passes trial division if it is prime. -/
theorem Trial.answer_iff (h : Trial n i tried passes) (hn : 2 ≤ n) (hodd : ¬ 2 ∣ n) (hi : i % 2 = 1) (hone : 1 < i)
    (hbelow : NoDivisorBelow n i) : passes = true ↔ n.Prime := by
  induction h with
  | passed hsquare => exact iff_of_true rfl (hbelow.prime hn hsquare)
  | @divided i hsquare hdvd =>
    refine iff_of_false Bool.false_ne_true fun hprime => ?_
    obtain rfl : i = n := (hprime.eq_one_or_self_of_dvd i (Nat.dvd_of_mod_eq_zero hdvd)).resolve_left hone.ne'
    exact absurd hsquare (Nat.not_le.2 (Nat.lt_mul_self_iff.2 hone))
  | next hsquare hdvd rest ih => exact ih (by omega) (by omega) (hbelow.add_two hodd hi hdvd)

theorem hasNoOddDivisorFrom_three_iff (hn : 2 ≤ n) (hodd : ¬ 2 ∣ n) : hasNoOddDivisorFrom n 3 = true ↔ n.Prime := by
  obtain ⟨tried, htrial⟩ := exists_trial (n := n) (i := 3) (by decide)
  exact htrial.answer_iff hn hodd rfl (by decide) (.three hodd)

theorem isPrime_iff_prime (n : ℤ) : isPrime n = true ↔ n.toNat.Prime := by
  rw [isPrime]
  split
  · next hsmall => exact iff_of_false Bool.false_ne_true fun hprime => by have := hprime.two_le; omega
  · next hsmall =>
    split
    · next htwo =>
      subst htwo
      exact iff_of_true rfl Nat.prime_two
    · next htwo =>
      split
      · next heven =>
        refine iff_of_false Bool.false_ne_true fun hprime => ?_
        have htwice : n.toNat % 2 = 0 := by omega
        have := hprime.eq_two_or_odd
        omega
      · next hodd => exact hasNoOddDivisorFrom_three_iff (by omega) (by omega)

/-- The primes among the integers, told by their divisors. -/
theorem prime_toNat_iff (n : ℤ) : n.toNat.Prime ↔ 2 ≤ n ∧ ∀ d : ℤ, 1 < d → d < n → ¬ d ∣ n := by
  rw [Nat.prime_def_lt']
  refine and_congr (by omega) ⟨fun h d hone hlt hdvd => ?_, fun h d hone hlt hdvd => ?_⟩
  · obtain ⟨d, rfl⟩ := Int.eq_ofNat_of_zero_le (by omega : 0 ≤ d)
    obtain ⟨n, rfl⟩ := Int.eq_ofNat_of_zero_le (by omega : 0 ≤ n)
    exact h d (by omega) (by omega) (Int.natCast_dvd_natCast.1 hdvd)
  · obtain ⟨n, rfl⟩ := Int.eq_ofNat_of_zero_le (by omega : 0 ≤ n)
    exact h d (by omega) (by omega) (Int.natCast_dvd_natCast.2 hdvd)

/-- **Trial division decides primality.** For every integer the loop over the odd candidates from three on ends: it has
one run, which tries no more candidates than half of the root and gives the answer that the function takes from it. And
the function holds of exactly the integers from two on that no integer above one and below them divides. -/
theorem isPrime_decides (n : ℤ) :
    (∃ tried, 2 * tried ≤ n.toNat.sqrt ∧
      ∀ k passes, Trial n.toNat 3 k passes ↔ k = tried ∧ passes = hasNoOddDivisorFrom n.toNat 3) ∧
      (isPrime n = true ↔ 2 ≤ n ∧ ∀ d : ℤ, 1 < d → d < n → ¬ d ∣ n) := by
  obtain ⟨tried, htrial⟩ := exists_trial (n := n.toNat) (i := 3) (by decide)
  refine ⟨⟨tried, ?_, fun k passes => ⟨htrial.unique, ?_⟩⟩, (isPrime_iff_prime n).trans (prime_toNat_iff n)⟩
  · have hroot := htrial.tried_le
    omega
  · rintro ⟨rfl, rfl⟩
    exact htrial

example : isPrime 121 = false ∧ isPrime 127 = true ∧ isPrime 2 = true ∧ isPrime (-7) = false := by
  decide +kernel

end Primitives.Integer
