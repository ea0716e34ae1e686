import Primitives.Number.Rounding

/-!
# Integer theory

Operations on integers of any size: divisors and multiples, factorials, the Fibonacci sequence and
primality by trial division.

## Main definitions

* `Integer.gcd`, `Integer.lcm`: non-negative divisor and multiple.
* `Integer.factorial`, `Integer.fibonacci`: zero for negative arguments.
* `Integer.isPrime`: trial division by odd numbers.
-/

namespace Primitives

/-- The greatest integer whose factorial is attempted lies below `2 ^ 63`. -/
structure FactorialTooLarge where
deriving DecidableEq

namespace Integer

/-- The greatest common divisor of two absolute values. -/
def gcd (a b : Int) : Int :=
  Nat.gcd a.natAbs b.natAbs

/-- The least common multiple of two absolute values, zero if one of them is. -/
def lcm (a b : Int) : Int :=
  if a = 0 ∨ b = 0 then 0 else (a.fdiv (gcd a b) * b).natAbs

/-- The product of the `count` numbers from `start` on, the two halves multiplied last. -/
def risingProduct (start count : Nat) : Nat :=
  if count = 0 then 1
  else if count = 1 then start
  else risingProduct start (count / 2) * risingProduct (start + count / 2) (count - count / 2)
termination_by count

/-- The factorial, zero for negative arguments. -/
def factorial (n : Int) : Except FactorialTooLarge Int :=
  if n < 0 then .ok 0
  else if n < 2 ^ 63 then .ok (risingProduct 1 n.toNat)
  else .error {}

/-- The pair of neighbours `n` steps further in the Fibonacci sequence. -/
def fibonacciFrom : Nat → Nat × Nat → Nat × Nat
  | 0, pair => pair
  | n + 1, (a, b) => fibonacciFrom n (b, a + b)

/-- The Fibonacci number at an index, zero for negative ones. -/
def fibonacci (n : Int) : Int :=
  (fibonacciFrom n.toNat (0, 1)).1

/-- Whether no number among `i, i + 2, …` with a square of at most `n` divides `n`. -/
def hasNoOddDivisorFrom (n i : Nat) : Bool :=
  if i * i ≤ n ∧ 0 < i then
    if n % i = 0 then false else hasNoOddDivisorFrom n (i + 2)
  else true
termination_by n + 1 - i
decreasing_by
  rename_i h _
  have : i * 1 ≤ i * i := Nat.mul_le_mul_left i h.2
  omega

/-- Whether an integer is a prime number. -/
def isPrime (n : Int) : Bool :=
  if n < 2 then false
  else if n = 2 then true
  else if n % 2 = 0 then false
  else hasNoOddDivisorFrom n.toNat 3

end Integer

end Primitives
