import Mathlib.Data.Nat.Factorial.Basic
import Mathlib.Data.Nat.Fib.Basic
import Primitives.Proofs.Number.Divisibility

/-!
# Fibonacci numbers and factorials

The loop of the Fibonacci sequence keeps a pair of neighbours and goes to the next pair with each round, so that both
numbers of the pair are known after any number of rounds. From this the sequence follows its recurrence, and its numbers
have a greatest common divisor that is the one at the greatest common divisor of their indices.

The factorial multiplies the numbers up to its argument by halves: the two halves of a run of factors are multiplied
by themselves and then with each other. The product is the one that the recurrence gives. The host attempts no factorial
of an integer from `2 ^ 63` on, so that the recurrence ends there.

## Main results

* `Integer.fibonacciFrom_fib`: the pair of neighbours after any number of rounds.
* `Integer.risingProduct_eq`: the product of a run of factors.
* `Integer.factorial_eq`: the factorials that are attempted.
* `Integer.fibonacci_factorial_recurrences`: both sequences.
-/

namespace Primitives.Integer

/-! ### Fibonacci numbers -/

/-- A pair of neighbours is taken as many steps further as there are rounds. -/
theorem fibonacciFrom_fib (rounds i : ℕ) :
    fibonacciFrom rounds (Nat.fib i, Nat.fib (i + 1)) = (Nat.fib (i + rounds), Nat.fib (i + rounds + 1)) := by
  induction rounds generalizing i with
  | zero => rfl
  | succ rounds ih => rw [fibonacciFrom, ← Nat.fib_add_two, ih (i + 1), Nat.succ_add_eq_add_succ]

theorem fibonacciFrom_zero_one (rounds : ℕ) :
    fibonacciFrom rounds (0, 1) = (Nat.fib rounds, Nat.fib (rounds + 1)) := by
  simpa only [Nat.zero_add, Nat.fib_zero, Nat.fib_one] using fibonacciFrom_fib rounds 0

theorem fibonacci_natCast (n : ℕ) : fibonacci n = Nat.fib n := by
  rw [fibonacci, Int.toNat_natCast, fibonacciFrom_zero_one]

theorem fibonacci_of_nonpos {n : ℤ} (h : n ≤ 0) : fibonacci n = 0 := by
  rw [fibonacci, Int.toNat_of_nonpos h]
  rfl

/-- A positive index is reached in one round less by the second number of the pair. -/
theorem fibonacci_of_pos {n : ℤ} (h : 0 < n) : fibonacci n = (fibonacciFrom (n.toNat - 1) (0, 1)).2 := by
  rw [fibonacci, fibonacciFrom_zero_one, fibonacciFrom_zero_one, Nat.sub_add_cancel (by omega)]

theorem fibonacci_add_two {n : ℤ} (h : 0 ≤ n) : fibonacci (n + 2) = fibonacci (n + 1) + fibonacci n := by
  obtain ⟨k, rfl⟩ := Int.eq_ofNat_of_zero_le h
  have hnext : fibonacci (k + 1) = Nat.fib (k + 1) := fibonacci_natCast (k + 1)
  have hlater : fibonacci (k + 2) = Nat.fib (k + 2) := fibonacci_natCast (k + 2)
  rw [hlater, hnext, fibonacci_natCast, Nat.fib_add_two, Nat.cast_add, Int.add_comm]

/-- Greatest common divisors of Fibonacci numbers are taken at the indices. -/
theorem gcd_fibonacci {m n : ℤ} (hm : 0 ≤ m) (hn : 0 ≤ n) :
    gcd (fibonacci m) (fibonacci n) = fibonacci (gcd m n) := by
  obtain ⟨k, rfl⟩ := Int.eq_ofNat_of_zero_le hm
  obtain ⟨l, rfl⟩ := Int.eq_ofNat_of_zero_le hn
  rw [gcd_eq, gcd_eq, fibonacci_natCast, fibonacci_natCast, fibonacci_natCast, Int.gcd_natCast_natCast,
    Int.gcd_natCast_natCast, Nat.fib_gcd]

/-! ### Factorials -/

/-- The halves of a run of factors have the product of the whole run. -/
theorem risingProduct_eq (start count : ℕ) : risingProduct start count = start.ascFactorial count := by
  fun_induction risingProduct start count with
  | case1 => rfl
  | case2 => rw [Nat.ascFactorial_succ, Nat.ascFactorial_zero, Nat.add_zero, Nat.mul_one]
  | case3 start count _ _ ihFront ihBack =>
    rw [ihFront, ihBack, Nat.ascFactorial_mul_ascFactorial, Nat.add_sub_cancel' (Nat.div_le_self ..)]

theorem factorial_of_neg {n : ℤ} (h : n < 0) : factorial n = .ok 0 :=
  if_pos h

/-- The factorial of an integer that is not too large for an attempt. -/
theorem factorial_eq {n : ℕ} (h : n < 2 ^ 63) : factorial n = .ok (n.factorial : ℤ) := by
  rw [factorial, if_neg (by omega), if_pos (by exact_mod_cast h), Int.toNat_natCast, risingProduct_eq,
    Nat.one_ascFactorial]

theorem factorial_of_le {n : ℤ} (h : 2 ^ 63 ≤ n) : factorial n = .error {} := by
  rw [factorial, if_neg (by omega), if_neg (Int.not_lt.2 h)]

/-- The factorial of the next integer, as long as it is attempted. -/
theorem exists_factorial_succ {n : ℤ} (h : 0 ≤ n) (hnext : n + 1 < 2 ^ 63) :
    ∃ f : ℤ, factorial n = .ok f ∧ factorial (n + 1) = .ok ((n + 1) * f) := by
  obtain ⟨k, rfl⟩ := Int.eq_ofNat_of_zero_le h
  have hsucc : factorial ((k + 1 : ℕ) : ℤ) = .ok ((k + 1).factorial : ℤ) := factorial_eq (by omega)
  refine ⟨(k.factorial : ℤ), factorial_eq (by omega), ?_⟩
  rw [Nat.factorial_succ] at hsucc
  exact_mod_cast hsucc

/-- **Fibonacci numbers and factorials follow their recurrences.** The Fibonacci number is zero at every index that is
not positive and one at one, and each later one is the sum of the two before it; a positive index is reached in one
round less than it tells. So the greatest common divisor of two of them is the one at the greatest common divisor of
their indices. The factorial is zero for a negative integer and one for zero, and it is multiplied by the next integer
as long as this one lies below `2 ^ 63`; no factorial is attempted from there on. -/
theorem fibonacci_factorial_recurrences :
    ((∀ n ≤ 0, fibonacci n = 0) ∧ fibonacci 1 = 1 ∧
      (∀ n, 0 ≤ n → fibonacci (n + 2) = fibonacci (n + 1) + fibonacci n) ∧
      (∀ n, 0 < n → fibonacci n = (fibonacciFrom (n.toNat - 1) (0, 1)).2) ∧
      ∀ m n, 0 ≤ m → 0 ≤ n → gcd (fibonacci m) (fibonacci n) = fibonacci (gcd m n)) ∧
    (∀ n < 0, factorial n = .ok 0) ∧ factorial 0 = .ok 1 ∧
      (∀ n, 0 ≤ n → n + 1 < 2 ^ 63 → ∃ f : ℤ, factorial n = .ok f ∧ factorial (n + 1) = .ok ((n + 1) * f)) ∧
      ∀ n, 2 ^ 63 ≤ n → factorial n = .error {} :=
  ⟨⟨fun _ => fibonacci_of_nonpos, rfl, fun _ => fibonacci_add_two, fun _ => fibonacci_of_pos,
      fun _ _ => gcd_fibonacci⟩,
    fun _ => factorial_of_neg, factorial_eq (by decide), fun _ => exists_factorial_succ, fun _ => factorial_of_le⟩

/-- The greatest common divisor of the numbers at 12 and 18 is the one at 6, and the factorial of 21 comes from that of
20. -/
theorem fibonacci_factorial_recurrences_six :
    gcd (fibonacci 12) (fibonacci 18) = 8 ∧ ∃ f : ℤ, factorial 20 = .ok f ∧ factorial (20 + 1) = .ok ((20 + 1) * f) := by
  obtain ⟨⟨-, -, -, -, hgcd⟩, -, -, hnext, -⟩ := fibonacci_factorial_recurrences
  exact ⟨(hgcd 12 18 (by decide) (by decide)).trans (by decide), hnext 20 (by decide) (by decide)⟩

/-- The recurrence of factorials ends: the factorial of `2 ^ 63` is not attempted. -/
theorem factorial_recurrence_ends :
    ¬ ∀ n : ℤ, 0 ≤ n → ∃ f : ℤ, factorial n = .ok f ∧ factorial (n + 1) = .ok ((n + 1) * f) := by
  intro h
  obtain ⟨f, -, hnext⟩ := h (2 ^ 63 - 1) (by decide)
  have hend : factorial (2 ^ 63 - 1 + 1) = .error {} := factorial_of_le (by decide)
  exact nomatch hend.symm.trans hnext

end Primitives.Integer
