import Mathlib.Algebra.BigOperators.Fin
import Mathlib.Data.List.OfFn
import Mathlib.Data.Nat.Size
import Mathlib.Logic.Function.Iterate
import Primitives.Number.Power
import Primitives.Random.Draw

/-!
# Attempts of a draw

A source gives a sequence of outputs, one after another. A draw of `k` bits takes a block of them, all of the same
length, and a draw below a bound takes one block after the other until the first that stands for a number below the
bound. So what a draw gives, and how many outputs it takes, is told by the sequence alone.

## Main definitions

* `Draw.output`, `Draw.stateAfter`: the sequence of a source, and the source behind a part of it.
* `Draw.numberOf`, `Draw.attempt`: the number that a block stands for, and those of all blocks of a sequence.
* `Draw.IsFirst`: the first attempt that lies below a bound.

## Main results

* `Draw.bits_eq`: a number of `k` bits.
* `Draw.bitsBelow?_eq_some_iff`, `Draw.bitsBelow?_eq_none_iff`: draws below a bound.
* `Draw.int?_eq_some_iff`, `Draw.int?_eq_none_iff`: draws of integers.
-/

namespace Primitives.Draw

variable {σ : Type} (next : σ → UInt32 × σ)

/-! ### The sequence of a source -/

/-- A source behind its next `n` outputs. -/
def stateAfter (n : Nat) (s : σ) : σ :=
  (fun s => (next s).2)^[n] s

/-- The output of a source behind `n` others. -/
def output (s : σ) (n : Nat) : UInt32 :=
  (next (stateAfter next n s)).1

theorem stateAfter_stateAfter (m n : Nat) (s : σ) :
    stateAfter next m (stateAfter next n s) = stateAfter next (n + m) s := by
  rw [stateAfter, stateAfter, stateAfter, Nat.add_comm, Function.iterate_add_apply]

theorem output_stateAfter (m n : Nat) (s : σ) : output next (stateAfter next m s) n = output next s (m + n) := by
  rw [output, output, stateAfter_stateAfter]

variable {next} in
/-- What every output of a source keeps is kept by any number of them. -/
theorem stateAfter_keeps {P : σ → Prop} (hnext : ∀ s, P s → P (next s).2) {s : σ} (h : P s) (n : Nat) :
    P (stateAfter next n s) :=
  Function.Iterate.rec P h hnext n

theorem words_eq (n : Nat) (s : σ) :
    words next n s = (List.ofFn fun j : Fin n => output next s j, stateAfter next n s) := by
  induction n generalizing s with
  | zero => rfl
  | succ n ih =>
    rw [words]
    dsimp only
    rw [ih, List.ofFn_succ]
    rfl

theorem fraction_eq (s : σ) :
    fraction next s = (fractionOf (output next s 0) (output next s 1), stateAfter next 2 s) :=
  rfl

/-! ### Numbers of blocks -/

/-- The number of `k` bits that a block of words stands for: the first word is the least significant, and the last
one is cut to its upper bits. -/
def numberOf (k : Nat) {n : Nat} (block : Fin n → UInt32) : Nat :=
  ∑ j : Fin n, (if j.val + 1 = n then (block j).toNat / 2 ^ (32 * n - k) else (block j).toNat) * 2 ^ (32 * j.val)

theorem wordsFor_of_lt {k : Nat} (h : 32 < k) : wordsFor k = wordsFor (k - 32) + 1 := by
  simp only [wordsFor]
  omega

/-- Of more than 32 bits the first word gives the lower 32. -/
theorem numberOf_succ {k n : Nat} (h : 32 < k) (hn : 0 < n) (block : Fin (n + 1) → UInt32) :
    numberOf k block = (block 0).toNat + 2 ^ 32 * numberOf (k - 32) (Fin.tail block) := by
  have hcut : 32 * (n + 1) - k = 32 * n - (k - 32) := by omega
  rw [numberOf, numberOf, Fin.sum_univ_succ, Finset.mul_sum, hcut]
  simp only [Fin.val_zero, Fin.val_succ, Nat.add_right_cancel_iff, if_neg hn.ne, Nat.mul_zero, Nat.pow_zero,
    Nat.mul_one]
  refine congrArg₂ (· + ·) rfl (Finset.sum_congr rfl fun j _ => ?_)
  rw [Nat.mul_add_one, Nat.pow_add, Nat.mul_comm (2 ^ (32 * j.val)), Nat.mul_left_comm]
  rfl

theorem compose_ofFn {k n : Nat} (hn : n = wordsFor k) (block : Fin n → UInt32) :
    compose k (List.ofFn block) = numberOf k block := by
  induction n generalizing k with
  | zero => rw [List.ofFn_zero, compose, numberOf, Finset.univ_eq_empty, Finset.sum_empty]
  | succ n ih =>
    rw [List.ofFn_succ, compose]
    split
    · next hk =>
      obtain rfl : n = 0 := by
        simp only [wordsFor] at hn
        omega
      rw [numberOf, Fin.sum_univ_one, Nat.shiftRight_eq_div_pow]
      simp
    · next hk =>
      have hlt : 32 < k := Nat.not_le.1 hk
      have hn : n = wordsFor (k - 32) := by rw [wordsFor_of_lt hlt] at hn; omega
      have hpos : 0 < n := by
        simp only [wordsFor] at hn
        omega
      rw [numberOf_succ hlt hpos, ← ih hn]
      rfl

/-! ### Attempts -/

/-- The number of `k` bits that the block with index `i` of a sequence stands for. -/
def attempt (k : Nat) (outputs : Nat → UInt32) (i : Nat) : Nat :=
  numberOf k fun j : Fin (wordsFor k) => outputs (i * wordsFor k + j)

/-- `i` is the index of the first attempt below a bound. -/
structure IsFirst (k bound : Nat) (outputs : Nat → UInt32) (i : Nat) : Prop where
  below : attempt k outputs i < bound
  before : ∀ j < i, bound ≤ attempt k outputs j

theorem IsFirst.unique {k bound i j : Nat} {outputs : Nat → UInt32} (hi : IsFirst k bound outputs i)
    (hj : IsFirst k bound outputs j) : i = j :=
  Nat.le_antisymm (Nat.not_lt.1 fun hlt => Nat.not_le.2 hj.below (hi.before j hlt))
    (Nat.not_lt.1 fun hlt => Nat.not_le.2 hi.below (hj.before i hlt))

theorem exists_isFirst {k bound i : Nat} {outputs : Nat → UInt32} (h : attempt k outputs i < bound) :
    ∃ j, IsFirst k bound outputs j := by
  have hexists : ∃ i, attempt k outputs i < bound := ⟨i, h⟩
  exact ⟨Nat.find hexists, Nat.find_spec hexists, fun j hj => Nat.not_lt.1 (Nat.find_min hexists hj)⟩

theorem bits_eq (k : Nat) (s : σ) :
    bits next k s = (attempt k (output next s) 0, stateAfter next (wordsFor k) s) := by
  have hblock : (fun j : Fin (wordsFor k) => output next s j) =
      fun j : Fin (wordsFor k) => output next s (0 * wordsFor k + j) := by
    funext j
    rw [Nat.zero_mul, Nat.zero_add]
  rw [bits, words_eq]
  dsimp only
  rw [compose_ofFn rfl, attempt, hblock]

/-- Behind the outputs of one attempt the next ones follow. -/
theorem attempt_stateAfter (k i : Nat) (s : σ) :
    attempt k (output next (stateAfter next (wordsFor k) s)) i = attempt k (output next s) (i + 1) := by
  rw [attempt, attempt]
  congr 1
  funext j
  rw [output_stateAfter, Nat.add_one_mul, Nat.add_left_comm, Nat.add_assoc, Nat.add_left_comm]

theorem isFirst_succ_iff {k bound i : Nat} {s : σ} : IsFirst k bound (output next s) (i + 1) ↔
    bound ≤ attempt k (output next s) 0 ∧
      IsFirst k bound (output next (stateAfter next (wordsFor k) s)) i := by
  constructor
  · intro h
    refine ⟨h.before 0 (Nat.succ_pos i), ?_, fun j hj => ?_⟩
    · rw [attempt_stateAfter]
      exact h.below
    · rw [attempt_stateAfter]
      exact h.before _ (Nat.succ_lt_succ hj)
  · rintro ⟨hfirst, hbelow, hbefore⟩
    rw [attempt_stateAfter] at hbelow
    refine ⟨hbelow, fun j hj => ?_⟩
    cases j with
    | zero => exact hfirst
    | succ j =>
      rw [← attempt_stateAfter]
      exact hbefore j (Nat.lt_of_succ_lt_succ hj)

/-! ### Numbers below a bound -/

/-- A draw below a bound makes one attempt, and goes on behind its outputs if this fails. -/
theorem bitsBelow?_eq (k bound : Nat) (s : σ) : bitsBelow? next k bound s =
    if attempt k (output next s) 0 < bound then
      some (attempt k (output next s) 0, stateAfter next (wordsFor k) s)
    else bitsBelow? next k bound (stateAfter next (wordsFor k) s) := by
  rw [bitsBelow?, bits_eq]

/-- Each attempt takes the outputs of its block, up to the first one below the bound. -/
theorem bitsBelow?_of_isFirst {k bound i : Nat} {s : σ} (h : IsFirst k bound (output next s) i) :
    bitsBelow? next k bound s =
      some (attempt k (output next s) i, stateAfter next ((i + 1) * wordsFor k) s) := by
  induction i generalizing s with
  | zero => rw [bitsBelow?_eq, if_pos h.below, Nat.zero_add, Nat.one_mul]
  | succ i ih =>
    obtain ⟨hfirst, hrest⟩ := (isFirst_succ_iff next).1 h
    rw [bitsBelow?_eq, if_neg (Nat.not_lt.2 hfirst), ih hrest, attempt_stateAfter, stateAfter_stateAfter,
      Nat.add_one_mul (i + 1), Nat.add_comm (wordsFor k)]

/-- A draw that ends has an attempt below the bound. -/
theorem exists_of_bitsBelow? {k bound : Nat} {s : σ} {found : Nat × σ}
    (h : bitsBelow? next k bound s = some found) : ∃ i, attempt k (output next s) i < bound := by
  refine bitsBelow?.partial_correctness next k bound
    (fun s _ => ∃ i, attempt k (output next s) i < bound) (fun loop ih s found h => ?_) s found h
  rw [bits_eq] at h
  dsimp only at h
  split at h
  · next hbelow => exact ⟨0, hbelow⟩
  · obtain ⟨i, hi⟩ := ih _ _ h
    exact ⟨i + 1, by rwa [attempt_stateAfter] at hi⟩

/-- A draw below a bound gives the first attempt below it. -/
theorem bitsBelow?_eq_some_iff {k bound r : Nat} {s s' : σ} :
    bitsBelow? next k bound s = some (r, s') ↔ ∃ i, IsFirst k bound (output next s) i ∧
      r = attempt k (output next s) i ∧ s' = stateAfter next ((i + 1) * wordsFor k) s := by
  constructor
  · intro h
    obtain ⟨i, hi⟩ := exists_of_bitsBelow? next h
    obtain ⟨j, hj⟩ := exists_isFirst hi
    rw [bitsBelow?_of_isFirst next hj] at h
    obtain ⟨rfl, rfl⟩ := Prod.mk.inj (Option.some.inj h)
    exact ⟨j, hj, rfl, rfl⟩
  · rintro ⟨i, hi, rfl, rfl⟩
    exact bitsBelow?_of_isFirst next hi

/-- A draw below a bound has no end exactly if all attempts fail. -/
theorem bitsBelow?_eq_none_iff {k bound : Nat} {s : σ} :
    bitsBelow? next k bound s = none ↔ ∀ i, bound ≤ attempt k (output next s) i := by
  constructor
  · intro h i
    by_contra hlt
    obtain ⟨j, hj⟩ := exists_isFirst (Nat.not_le.1 hlt)
    rw [bitsBelow?_of_isFirst next hj] at h
    simp at h
  · intro h
    cases hdraw : bitsBelow? next k bound s with
    | none => rfl
    | some found =>
      obtain ⟨i, hi⟩ := exists_of_bitsBelow? next hdraw
      exact absurd hi (Nat.not_lt.2 (h i))

/-! ### Integers between two bounds -/

/-- The number of integers between two bounds, both included. -/
def span (low high : Int) : Nat :=
  (max low high - min low high + 1).toNat

theorem bitLength_eq_size (n : Nat) : bitLength n = n.size := by
  rw [bitLength]
  split
  · next h => rw [h, Nat.size_zero]
  · next h =>
    exact Nat.le_antisymm (Nat.lt_size.2 (Nat.log2_self_le h)) (Nat.size_le.2 Nat.lt_log2_self)

theorem int?_eq (low high : Int) (s : σ) : int? next low high s =
    (bitsBelow? next (span low high).size (span low high) s).map fun (r, s) => (min low high + r, s) := by
  rw [← bitLength_eq_size]
  rfl

theorem int?_of_isFirst {low high : Int} {i : Nat} {s : σ}
    (h : IsFirst (span low high).size (span low high) (output next s) i) :
    int? next low high s = some (min low high + attempt (span low high).size (output next s) i,
      stateAfter next ((i + 1) * wordsFor (span low high).size) s) := by
  rw [int?_eq, bitsBelow?_of_isFirst next h]
  rfl

theorem int?_eq_some_iff {low high n : Int} {s s' : σ} : int? next low high s = some (n, s') ↔
    ∃ i, IsFirst (span low high).size (span low high) (output next s) i ∧
      n = min low high + attempt (span low high).size (output next s) i ∧
        s' = stateAfter next ((i + 1) * wordsFor (span low high).size) s := by
  constructor
  · rw [int?_eq, Option.map_eq_some_iff]
    rintro ⟨⟨r, s''⟩, hbelow, heq⟩
    obtain ⟨rfl, rfl⟩ := Prod.mk.inj heq
    obtain ⟨i, hi, rfl, rfl⟩ := (bitsBelow?_eq_some_iff next).1 hbelow
    exact ⟨i, hi, rfl, rfl⟩
  · rintro ⟨i, hi, rfl, rfl⟩
    exact int?_of_isFirst next hi

theorem int?_eq_none_iff {low high : Int} {s : σ} : int? next low high s = none ↔
    ∀ i, span low high ≤ attempt (span low high).size (output next s) i := by
  rw [int?_eq, Option.map_eq_none_iff, bitsBelow?_eq_none_iff]

/-- The order of the bounds does not matter. -/
theorem int?_comm (low high : Int) (s : σ) : int? next low high s = int? next high low s := by
  rw [int?_eq, int?_eq, span, span, Int.max_comm, Int.min_comm]

end Primitives.Draw
