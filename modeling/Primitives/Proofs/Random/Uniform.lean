import Mathlib.Data.FinEnum
import Primitives.Proofs.Random.Attempts
import Primitives.Random.Stream

/-!
# Uniform integers

All numbers of `k` bits are those of equally many blocks of words: of a block, the words in front of the last one
and the upper bits of the last one are determined by the number, and its lower bits are free. So an attempt gives
every integer between the bounds equally often, and since the number of these integers has `k` binary digits, at
least half of all attempts succeed.

## Main definitions

* `Draw.outcome?`: the integer that a block gives.

## Main results

* `Draw.card_numberOf_eq`: the blocks of a number.
* `Draw.card_outcome?_eq`, `Draw.le_card_outcome?`: the blocks of an integer, and those that give any.
* `RandomStream.int_uniform`: draws of integers.
-/

namespace Primitives

namespace Draw

variable {k n v : Nat} {low high : Int}

/-! ### Blocks of a number -/

theorem toNat_ofNat_shifted {c r : Nat} (hc : c ≤ 32) (hv : v < 2 ^ (32 - c)) (hr : r < 2 ^ c) :
    (UInt32.ofNat (v * 2 ^ c + r)).toNat = v * 2 ^ c + r := by
  have hnext : (v + 1) * 2 ^ c ≤ 2 ^ (32 - c) * 2 ^ c := Nat.mul_le_mul_right _ hv
  rw [← Nat.pow_add, Nat.sub_add_cancel hc, Nat.add_one_mul] at hnext
  have hlt : v * 2 ^ c + r < 2 ^ 32 := by omega
  exact UInt32.toNat_ofNat_of_lt' hlt

/-- The lower bits of a word whose upper ones are given can be any. -/
def lowerBits {c : Nat} (hc : c ≤ 32) (hv : v < 2 ^ (32 - c)) :
    {block : Fin 1 → UInt32 // (block 0).toNat / 2 ^ c = v} ≃ Fin (2 ^ c) where
  toFun block := ⟨(block.1 0).toNat % 2 ^ c, Nat.mod_lt _ (Nat.two_pow_pos c)⟩
  invFun r := ⟨fun _ => UInt32.ofNat (v * 2 ^ c + r), by
    rw [toNat_ofNat_shifted hc hv r.isLt, Nat.add_comm, Nat.add_mul_div_right _ _ (Nat.two_pow_pos c),
      Nat.div_eq_of_lt r.isLt, Nat.zero_add]⟩
  left_inv := by
    rintro ⟨block, hblock⟩
    refine Subtype.ext (funext fun j => ?_)
    dsimp only
    rw [← hblock, Nat.div_add_mod', UInt32.ofNat_toNat, Subsingleton.elim j 0]
  right_inv := by
    intro r
    refine Fin.ext ?_
    dsimp only
    rw [toNat_ofNat_shifted hc hv r.isLt, Nat.add_comm, Nat.add_mul_mod_self_right, Nat.mod_eq_of_lt r.isLt]

/-- The words with given upper bits are as many as there are lower bits. -/
theorem card_shifted_eq {c : Nat} (hc : c ≤ 32) (hv : v < 2 ^ (32 - c)) :
    (Finset.univ.filter fun block : Fin 1 → UInt32 => (block 0).toNat / 2 ^ c = v).card = 2 ^ c := by
  rw [← Fintype.card_subtype, Fintype.card_congr (lowerBits hc hv), Fintype.card_fin]

/-- A block of a number of more than 32 bits begins with the lower 32, and goes on with a block of the others. -/
theorem filter_numberOf_succ (h : 32 < k) (hn : 0 < n) :
    (Finset.univ.filter fun block : Fin (n + 1) → UInt32 => numberOf k block = v) =
      (Finset.univ.filter fun block : Fin n → UInt32 => numberOf (k - 32) block = v / 2 ^ 32).image
        (Fin.cons (UInt32.ofNat v)) := by
  ext block
  simp only [Finset.mem_filter, Finset.mem_univ, true_and, Finset.mem_image]
  rw [numberOf_succ h hn]
  have hfirst : (block 0).toNat < 2 ^ 32 := (block 0).toNat_lt
  constructor
  · rintro rfl
    refine ⟨Fin.tail block, ?_, ?_⟩
    · omega
    · have hword : UInt32.ofNat ((block 0).toNat + 2 ^ 32 * numberOf (k - 32) (Fin.tail block)) = block 0 := by
        refine UInt32.toNat_inj.1 ?_
        rw [UInt32.toNat_ofNat', Nat.add_mul_mod_self_left, Nat.mod_eq_of_lt hfirst]
      rw [hword, Fin.cons_self_tail]
  · rintro ⟨rest, hrest, rfl⟩
    rw [Fin.cons_zero, Fin.tail_cons, hrest, UInt32.toNat_ofNat', Nat.mod_add_div]

/-- Every number of `k` bits is that of as many blocks as there are bits to be cut off. -/
theorem card_numberOf_eq (hn : n = wordsFor k) (hv : v < 2 ^ k) :
    (Finset.univ.filter fun block : Fin n → UInt32 => numberOf k block = v).card = 2 ^ (32 * n - k) := by
  induction n generalizing k v with
  | zero =>
    obtain rfl : k = 0 := by
      simp only [wordsFor] at hn
      omega
    obtain rfl : v = 0 := by omega
    rfl
  | succ n ih =>
    by_cases hk : k ≤ 32
    · obtain rfl : n = 0 := by
        simp only [wordsFor] at hn
        omega
      have hsingle (block : Fin (0 + 1) → UInt32) : numberOf k block = (block 0).toNat / 2 ^ (32 - k) := by
        rw [numberOf, Fin.sum_univ_one]
        simp
      simp only [hsingle, Nat.zero_add, Nat.mul_one]
      exact card_shifted_eq (Nat.sub_le 32 k) (by rwa [Nat.sub_sub_self hk])
    · have hlt : 32 < k := Nat.not_le.1 hk
      have hn' : n = wordsFor (k - 32) := by
        rw [wordsFor_of_lt hlt] at hn
        omega
      have hpos : 0 < n := by
        simp only [wordsFor] at hn'
        omega
      have hv' : v / 2 ^ 32 < 2 ^ (k - 32) := by
        rwa [Nat.div_lt_iff_lt_mul (Nat.two_pow_pos 32), ← Nat.pow_add, Nat.sub_add_cancel hlt.le]
      rw [filter_numberOf_succ hlt hpos, Finset.card_image_of_injective _ (Fin.cons_right_injective _), ih hn' hv']
      congr 1
      omega

/-! ### Blocks of an integer -/

/-- The integer between two bounds that a block of words gives, if it lies below the number of these integers. -/
def outcome? (low high : Int) (block : Fin n → UInt32) : Option Int :=
  let r := numberOf (span low high).size block
  if r < span low high then some (min low high + r) else none

theorem cast_span (low high : Int) : (span low high : Int) = max low high - min low high + 1 := by
  rw [span, Int.toNat_of_nonneg]
  omega

theorem two_pow_size_le {m : Nat} (h : 0 < m) : 2 ^ m.size ≤ 2 * m := by
  have hle := Nat.lt_size.1 (Nat.sub_one_lt (Nat.size_pos.2 h).ne')
  have hpow : 2 ^ m.size = 2 * 2 ^ (m.size - 1) := by
    rw [← Nat.pow_succ', Nat.succ_eq_add_one, Nat.sub_add_cancel (Nat.size_pos.2 h)]
  omega

/-- A block gives an integer exactly if it stands for the distance from the least one. -/
theorem outcome?_eq_some_iff {block : Fin n → UInt32} {i : Int} (hlow : min low high ≤ i) (hhigh : i ≤ max low high) :
    outcome? low high block = some i ↔ numberOf (span low high).size block = (i - min low high).toNat := by
  have hspan := cast_span low high
  simp only [outcome?]
  split
  · rw [Option.some_inj]
    omega
  · refine iff_of_false (by simp) ?_
    omega

theorem isSome_outcome?_iff {block : Fin n → UInt32} :
    (outcome? low high block).isSome ↔ numberOf (span low high).size block < span low high := by
  simp only [outcome?]
  split <;> simp_all

/-- Every integer between the bounds is given by equally many blocks. -/
theorem card_outcome?_eq (hn : n = wordsFor (span low high).size) {i : Int} (hlow : min low high ≤ i)
    (hhigh : i ≤ max low high) :
    (Finset.univ.filter fun block : Fin n → UInt32 => outcome? low high block = some i).card =
      2 ^ (32 * n - (span low high).size) := by
  have hspan := cast_span low high
  have hlt : (i - min low high).toNat < 2 ^ (span low high).size := by
    refine Nat.lt_of_lt_of_le ?_ (Nat.lt_size_self (span low high)).le
    omega
  simp only [outcome?_eq_some_iff hlow hhigh]
  exact card_numberOf_eq hn hlt

/-- At least half of all blocks give an integer. -/
theorem le_card_outcome? (hn : n = wordsFor (span low high).size) : 2 ^ (32 * n) ≤
    2 * (Finset.univ.filter fun block : Fin n → UInt32 => (outcome? low high block).isSome).card := by
  have hspan := cast_span low high
  have hpos : 0 < span low high := by omega
  have hle : (span low high).size ≤ 32 * n := by
    rw [hn, wordsFor]
    omega
  have hfibers : (Finset.univ.filter fun block : Fin n → UInt32 => (outcome? low high block).isSome).card =
      span low high * 2 ^ (32 * n - (span low high).size) := by
    simp only [isSome_outcome?_iff]
    rw [Finset.card_eq_sum_card_fiberwise (f := numberOf (span low high).size) (t := Finset.range (span low high))
      (fun block hblock => by simpa using hblock)]
    have hfiber : ∀ r ∈ Finset.range (span low high), ((Finset.univ.filter fun block : Fin n → UInt32 =>
        numberOf (span low high).size block < span low high).filter fun block =>
          numberOf (span low high).size block = r).card = 2 ^ (32 * n - (span low high).size) := by
      intro r hr
      rw [Finset.mem_range] at hr
      rw [Finset.filter_filter, ← card_numberOf_eq hn (hr.trans (Nat.lt_size_self _))]
      congr 1
      ext block
      simp only [Finset.mem_filter, Finset.mem_univ, true_and, and_iff_right_iff_imp]
      rintro rfl
      exact hr
    rw [Finset.sum_congr rfl hfiber, Finset.sum_const, Finset.card_range, smul_eq_mul]
  rw [hfibers, ← Nat.mul_assoc]
  calc 2 ^ (32 * n) = 2 ^ (span low high).size * 2 ^ (32 * n - (span low high).size) := by
        rw [← Nat.pow_add, Nat.add_sub_cancel' hle]
    _ ≤ 2 * span low high * 2 ^ (32 * n - (span low high).size) :=
        Nat.mul_le_mul_right _ (two_pow_size_le hpos)

end Draw

/-! ### Draws -/

open Draw

/-- **Integers between two bounds are drawn uniformly.** With `k` the number of binary digits of the number of
integers between two different bounds, an attempt takes the outputs of one block, as many as it needs for `k` bits.
A draw gives the first attempt that lies below the number of integers, added to the least one, and takes the outputs
of all attempts up to it; it has no end only if all attempts fail. So the result is between the bounds, and their
order does not matter. Every integer between them is given by equally many blocks, and at least half of all blocks
give one. -/
theorem RandomStream.int_uniform {low high : Int} (hne : low ≠ high) :
    (∀ {σ : Type} (next : σ → UInt32 × σ) (s : σ),
      (∀ n s', int? next low high s = some (n, s') ↔
        ∃ i, IsFirst (span low high).size (span low high) (output next s) i ∧
          n = min low high + attempt (span low high).size (output next s) i ∧
          s' = stateAfter next ((i + 1) * wordsFor (span low high).size) s) ∧
      (int? next low high s = none ↔ ∀ i, span low high ≤ attempt (span low high).size (output next s) i) ∧
      (∀ n s', int? next low high s = some (n, s') → min low high ≤ n ∧ n ≤ max low high) ∧
      int? next low high s = int? next high low s) ∧
    (∀ stream : RandomStream, stream.int low high = stream.int high low ∧ stream.int low high =
      (int? Twister.next low high stream.ready).map fun (n, t) => (n, stream.resume t)) ∧
    (∀ i, min low high ≤ i → i ≤ max low high →
      (Finset.univ.filter fun block : Fin (wordsFor (span low high).size) → UInt32 =>
        outcome? low high block = some i).card = 2 ^ (32 * wordsFor (span low high).size - (span low high).size)) ∧
    2 ^ (32 * wordsFor (span low high).size) ≤
      2 * (Finset.univ.filter fun block : Fin (wordsFor (span low high).size) → UInt32 =>
        (outcome? low high block).isSome).card := by
  refine ⟨fun {σ} next s => ?_, fun stream => ?_, fun i => card_outcome?_eq rfl, le_card_outcome? rfl⟩
  · refine ⟨fun n s' => int?_eq_some_iff next, int?_eq_none_iff next, fun n s' hdraw => ?_, int?_comm ..⟩
    obtain ⟨i, hi, rfl, -⟩ := (int?_eq_some_iff next).1 hdraw
    have hbelow := hi.below
    have hspan := cast_span low high
    omega
  · have hint : stream.int low high =
        (int? Twister.next low high stream.ready).map fun (n, t) => (n, stream.resume t) := by
      rw [RandomStream.int, if_neg hne]
    refine ⟨?_, hint⟩
    rw [hint, int?_comm, RandomStream.int, if_neg hne.symm]

/-- All integers of 64 bits: an attempt takes three outputs and one bit of the last of them. The first attempt fails
because of this bit, the second one succeeds. -/
theorem RandomStream.int_uniform_machine :
    let next : Nat → UInt32 × Nat := fun n => ([1, 2, 0xffffffff, 7, 0, 0x7fffffff].getD n 0, n + 1)
    (-2 ^ 63 : Int) ≠ 2 ^ 63 - 1 ∧ int? next (-2 ^ 63) (2 ^ 63 - 1) 0 = some (-2 ^ 63 + 7, 6) ∧
      (Finset.univ.filter fun block : Fin 3 → UInt32 =>
        outcome? (-2 ^ 63) (2 ^ 63 - 1) block = some 0).card = 2 ^ 31 := by
  intro next
  have hne : (-2 ^ 63 : Int) ≠ 2 ^ 63 - 1 := by decide
  have hspan : span (-2 ^ 63) (2 ^ 63 - 1) = 2 ^ 64 := by decide +kernel
  have hsize : (span (-2 ^ 63) (2 ^ 63 - 1)).size = 65 := by rw [hspan, Nat.size_pow]
  obtain ⟨hdraws, -, hblocks, -⟩ := RandomStream.int_uniform hne
  rw [hsize, hspan] at hdraws
  rw [hsize] at hblocks
  refine ⟨hne, ((hdraws next 0).1 _ _).2 ⟨1, ⟨by decide +kernel, by decide +kernel⟩, by decide +kernel, rfl⟩, ?_⟩
  exact hblocks 0 (by decide) (by decide)

end Primitives
