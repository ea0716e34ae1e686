import Primitives.Number.Power

/-!
# Rounding of quotients and integer roots

A quotient of natural numbers is rounded to the nearest natural number, and a quotient exactly
between two goes to the even one. Integer roots are rounded down and found digit by digit.

## Main definitions

* `roundHalfEven`: the nearest natural number to a quotient, ties to even.
* `rootFloor`: the floor of a `k`-th root.

## Main results

* `roundHalfEven_le`: a rounded quotient exceeds the floor by at most one.
-/

namespace Primitives

/-- The natural number nearest to `num / den`, a tie going to the even neighbour. -/
def roundHalfEven (num den : Nat) : Nat :=
  let floor := num / den
  let twice := 2 * (num % den)
  if twice < den ∨ (twice = den ∧ floor % 2 = 0) then floor else floor + 1

theorem roundHalfEven_le (num den : Nat) : roundHalfEven num den ≤ num / den + 1 := by
  unfold roundHalfEven
  dsimp only
  split <;> omega

theorem le_roundHalfEven (num den : Nat) : num / den ≤ roundHalfEven num den := by
  unfold roundHalfEven
  dsimp only
  split <;> omega

/-- The greatest natural number whose power `k + 1` is at most `n`. The root of `n / 2 ^ (k + 1)`
gives all binary digits but the last one. -/
def rootFloor (k n : Nat) : Nat :=
  if n = 0 then 0
  else
    let r := 2 * rootFloor k (n / 2 ^ (k + 1))
    if (r + 1) ^ (k + 1) ≤ n then r + 1 else r
termination_by n
decreasing_by
  exact Nat.div_lt_self (by omega) (Nat.one_lt_two_pow (by omega))

/-- The floor of a square root. -/
abbrev sqrtFloor (n : Nat) : Nat :=
  rootFloor 1 n

/-- The floor of a cube root. -/
abbrev cbrtFloor (n : Nat) : Nat :=
  rootFloor 2 n

end Primitives
