import Mathlib.Data.List.FinRange
import Mathlib.Data.Nat.Bitwise
import Primitives.Number.Power
import Primitives.Random.Twister

/-!
# The recurrence of the Mersenne twister

The generator is an implementation of an unbounded sequence of numbers. Its first 624 members are the key
schedule of a seed, and each further one comes from the member 397 places behind the one 624 places in
front of it, and from the upper bit of the latter and the lower bits of its successor. The sequence is
stated on natural numbers, with every reduction written out.

The 624 words of the generator are a *window* of this sequence: they hold 624 consecutive members, each at
its index modulo 624. Replacing one word in place moves the window on by one, because the index of the
member that leaves is that of the member that comes in; so it does not matter that later replacements
read words that earlier ones have written.

## Main definitions

* `Recurrence.word`, `Recurrence.temper`: the sequence of a seed, and the mixing of its members.
* `Twister.Window`: words that hold consecutive members of a sequence.
* `Twister.HasGiven`: a generator that has given a number of outputs since it was seeded.

## Main results

* `Recurrence.word_add`: the recurrence.
* `Twister.Window.regenerate`: regeneration in place moves the window on by 624.
* `Twister.HasGiven.next`: each output is the next member, mixed.
-/

namespace Primitives

/-! ### The sequence of a seed -/

namespace Recurrence

/-- The key schedule of a seed. -/
def initial (seed : Nat) : Nat → Nat
  | 0 => seed
  | i + 1 => (1812433253 * (initial seed i ^^^ initial seed i / 2 ^ 30) + (i + 1)) % 2 ^ 32

/-- The number of 32 bits with the upper bit of one number and the lower 31 bits of another. -/
def join (upper lower : Nat) : Nat :=
  upper / 2 ^ 31 * 2 ^ 31 + lower % 2 ^ 31

/-- A number without its lowest bit; a bit that is set leaves the coefficients of the generator. -/
def twist (y : Nat) : Nat :=
  y / 2 ^^^ (if y % 2 = 1 then 0x9908b0df else 0)

/-- The sequence of a seed. -/
def word (seed n : Nat) : Nat :=
  if n < 624 then initial seed n
  else word seed (n - 227) ^^^ twist (join (word seed (n - 624)) (word seed (n - 623)))

theorem word_of_lt {n : Nat} (h : n < 624) (seed : Nat) : word seed n = initial seed n := by
  rw [word, if_pos h]

/-- Each member behind the key schedule comes from three in front of it. -/
theorem word_add (seed k : Nat) :
    word seed (k + 624) =
      word seed (k + 397) ^^^ twist (join (word seed k) (word seed (k + 1))) := by
  rw [word, if_neg (by omega), show k + 624 - 227 = k + 397 by omega,
    show k + 624 - 624 = k by omega, show k + 624 - 623 = k + 1 by omega]

/-- The mixing of a member before it is given out. -/
def temper (y : Nat) : Nat :=
  let y := y ^^^ y / 2 ^ 11
  let y := y ^^^ (y * 2 ^ 7 &&& 0x9d2c5680)
  let y := y ^^^ (y * 2 ^ 15 &&& 0xefc60000)
  y ^^^ y / 2 ^ 18

end Recurrence

namespace Twister

open Recurrence

/-! ### Words as numbers -/

theorem toNat_scheduleStep (w : UInt32) (i : Nat) :
    (scheduleStep w i).toNat =
      (1812433253 * (w.toNat ^^^ w.toNat / 2 ^ 30) + i) % 2 ^ 32 := by
  simp [scheduleStep, Nat.shiftRight_eq_div_pow]

/-- A mask takes nothing from the bits that a shift pushes out of a word. -/
theorem toNat_shiftLeft_and (w shift mask : UInt32) (h : shift.toNat < 32) :
    ((w <<< shift) &&& mask).toNat = w.toNat * 2 ^ shift.toNat &&& mask.toNat := by
  have hmask : (2 ^ 32 - 1) &&& mask.toNat = mask.toNat := by
    rw [Nat.and_comm, Nat.and_two_pow_sub_one_of_lt_two_pow mask.toNat_lt]
  rw [UInt32.toNat_and, UInt32.toNat_shiftLeft, Nat.mod_eq_of_lt h, Nat.shiftLeft_eq,
    ← Nat.and_two_pow_sub_one_eq_mod, Nat.and_assoc, hmask]

theorem toNat_shiftRight (w shift : UInt32) (h : shift.toNat < 32) :
    (w >>> shift).toNat = w.toNat / 2 ^ shift.toNat := by
  rw [UInt32.toNat_shiftRight, Nat.mod_eq_of_lt h, Nat.shiftRight_eq_div_pow]

theorem toNat_temper (w : UInt32) : (temper w).toNat = Recurrence.temper w.toNat := by
  simp (disch := decide) only [temper, UInt32.toNat_xor, toNat_shiftRight, toNat_shiftLeft_and]
  rfl

/-- The upper bit of a word. -/
theorem toNat_and_upper (w : UInt32) : w.toNat &&& 2 ^ 31 = 2 ^ 31 * (w.toNat / 2 ^ 31) := by
  have hlt : w.toNat / 2 ^ 31 < 2 := Nat.div_lt_of_lt_mul w.toNat_lt
  rw [Nat.and_two_pow, Nat.testBit_eq_decide_div_mod_eq, Nat.mod_eq_of_lt hlt, Nat.mul_comm]
  rcases Nat.lt_succ_iff_lt_or_eq.1 hlt with hzero | hone
  · rw [Nat.lt_one_iff.1 hzero]
    rfl
  · rw [hone]
    rfl

/-- The upper bit and the lower bits of two words do not overlap. -/
theorem toNat_joined (u v : UInt32) :
    ((u &&& 0x80000000) ||| (v &&& 0x7fffffff)).toNat = join u.toNat v.toNat := by
  calc ((u &&& 0x80000000) ||| (v &&& 0x7fffffff)).toNat
      = (u.toNat &&& 2 ^ 31) ||| (v.toNat &&& 2 ^ 31 - 1) := rfl
    _ = 2 ^ 31 * (u.toNat / 2 ^ 31) ||| v.toNat % 2 ^ 31 := by
      rw [toNat_and_upper, Nat.and_two_pow_sub_one_eq_mod]
    _ = join u.toNat v.toNat := by
      rw [← Nat.two_pow_add_eq_or_of_lt (Nat.mod_lt _ (by decide)), join, Nat.mul_comm]

theorem toNat_twist (u v : UInt32) :
    (twist u v).toNat = Recurrence.twist (join u.toNat v.toNat) := by
  rw [← toNat_joined]
  generalize hy : (u &&& 0x80000000) ||| (v &&& 0x7fffffff) = y
  have hodd : y &&& 1 = 1 ↔ y.toNat % 2 = 1 := by
    rw [← UInt32.toNat_inj, UInt32.toNat_and]
    exact Iff.of_eq (congrArg (· = 1) (Nat.and_one_is_mod y.toNat))
  have hshift : (y >>> 1).toNat = y.toNat / 2 := toNat_shiftRight y 1 (by decide)
  simp only [twist, hy, Recurrence.twist, hodd, UInt32.toNat_xor, hshift]
  split <;> rfl

/-! ### Loops over all places -/

/-- What holds in front of a loop, and is moved on by each of its steps, holds behind it. -/
theorem foldl_finRange {α : Type} {n : Nat} {f : α → Fin n → α} {P : Nat → α → Prop} {a : α}
    (hstart : P 0 a) (hstep : ∀ (k : Fin n) a, P k a → P (k + 1) (f a k)) :
    P n ((List.finRange n).foldl f a) := by
  have hprefix : ∀ k ≤ n, P k (((List.finRange n).take k).foldl f a) := by
    intro k hk
    induction k with
    | zero => exact hstart
    | succ k ih =>
      rw [List.take_succ_eq_append_getElem (by simpa using Nat.lt_of_succ_le hk), List.foldl_append]
      simpa using hstep ⟨k, hk⟩ _ (ih (by omega))
  simpa [List.take_of_length_le] using hprefix n le_rfl

/-! ### Windows -/

/-- Words that hold the members of the sequence of a seed from `start` on, each at its index modulo the
number of words. -/
def Window (seed start : Nat) (words : Vector UInt32 wordCount) : Prop :=
  ∀ n, start ≤ n → n < start + wordCount → (h : n % wordCount < wordCount) →
    words[n % wordCount].toNat = word seed n

/-- In front of step `k` of the key schedule the places up to `k` are filled. -/
def Filled (seed k : Nat) (words : Vector UInt32 wordCount) : Prop :=
  ∀ i ≤ k, (h : i < wordCount) → words[i].toNat = initial seed i

theorem Filled.scheduleAt {seed : Nat} {words : Vector UInt32 wordCount} {k : Fin (wordCount - 1)}
    (h : Filled seed k words) : Filled seed (k + 1) (Twister.scheduleAt words k) := by
  intro i hi hlt
  simp only [Twister.scheduleAt, Vector.getElem_set]
  split
  · next heq =>
    subst heq
    rw [toNat_scheduleStep, initial, ← h k le_rfl (by omega)]
    rfl
  · exact h i (by omega) hlt

/-- The words that a seed starts with are the key schedule. -/
theorem window_schedule (seed : UInt32) : Window seed.toNat 0 (schedule seed) := by
  have hstart : Filled seed.toNat 0 (Vector.replicate wordCount seed) := by
    rintro i hi h
    obtain rfl : i = 0 := by omega
    simp [initial]
  have hfilled : Filled seed.toNat (wordCount - 1) (schedule seed) :=
    foldl_finRange hstart fun k words hwords => hwords.scheduleAt
  intro n _ hn _
  have hlt : n < wordCount := by omega
  simp only [Nat.mod_eq_of_lt hlt]
  rw [hfilled n (by omega) hlt, word_of_lt hlt]

/-- Replacing the first word of a window in place moves the window on by one. -/
theorem Window.regenerateAt {seed start : Nat} {words : Vector UInt32 wordCount} {k : Fin wordCount}
    (h : Window seed start words) (hk : start % wordCount = k) :
    Window seed (start + 1) (Twister.regenerateAt words k) := by
  -- A place behind `k` holds an older member and a place in front of it one that was written before, and
  -- the window says of both which member it is.
  have hread : ∀ j : Fin wordCount, words[k + j].toNat = word seed (start + j) := by
    intro j
    rw [← h (start + j) (by omega) (by omega) (Nat.mod_lt _ (by decide))]
    have hindex : (k + j : Fin wordCount).val = (start + j) % wordCount := by
      rw [Fin.val_add, ← hk, Nat.mod_add_mod]
    simp only [Fin.getElem_fin, hindex]
  have hfirst : words[k].toNat = word seed start := by
    simpa using hread 0
  have hnew : (words[k + (397 : Fin wordCount)] ^^^
      twist words[k] words[k + (1 : Fin wordCount)]).toNat = word seed (start + wordCount) := by
    rw [UInt32.toNat_xor, toNat_twist, hread, hread, hfirst]
    exact (word_add seed start).symm
  intro n hle hlt hmod
  simp only [Twister.regenerateAt, Vector.getElem_set]
  split
  · next heq =>
    have hn : n = start + wordCount := by
      rw [← hk] at heq
      have hcount : wordCount = 624 := rfl
      rw [hcount] at heq hlt ⊢
      omega
    rw [hn, hnew]
  · next hne =>
    refine h n (by omega) (Nat.lt_of_le_of_ne (by omega) ?_) hmod
    rintro rfl
    exact hne (by rw [Nat.add_mod_right, hk])

/-- Regeneration in place moves the window on by all its members. -/
theorem Window.regenerate {seed start : Nat} {words : Vector UInt32 wordCount}
    (h : Window seed start words) (hstart : wordCount ∣ start) :
    Window seed (start + wordCount) (Twister.regenerate words) := by
  refine foldl_finRange (P := fun k words => Window seed (start + k) words) h ?_
  intro k words hwords
  refine hwords.regenerateAt ?_
  obtain ⟨blocks, rfl⟩ := hstart
  rw [Nat.mul_add_mod, Nat.mod_eq_of_lt k.isLt]

/-! ### Outputs -/

/-- A generator that has given `n` outputs since it was seeded. Its words are a window that begins at a
multiple of their number, and its position is where the member of the next output is or will be. -/
def HasGiven (seed n : Nat) (t : Twister) : Prop :=
  ∃ start, wordCount ∣ start ∧ Window seed start t.words ∧ 0 < t.position ∧
    start + t.position = n + wordCount

theorem hasGiven_seeded (seed : UInt32) : HasGiven seed.toNat 0 (seeded seed) := by
  have hwords : (seeded seed).words = schedule seed := by rw [seeded]
  have hposition : (seeded seed).position = wordCount := rfl
  refine ⟨0, Nat.dvd_zero _, hwords ▸ window_schedule seed, ?_, ?_⟩
  · rw [hposition]
    decide
  · rw [hposition]

/-- Behind its last word a generator goes on with regenerated words. -/
theorem next_of_end {t : Twister} (h : ¬ t.position < wordCount) :
    t.next.1 = Twister.temper (regenerate t.words)[0] ∧ t.next.2.words = regenerate t.words ∧
      t.next.2.position = 1 := by
  rw [Twister.next, dif_neg h]
  exact ⟨rfl, by simp only, rfl⟩

/-- Each output is the next member of the sequence, mixed. -/
theorem HasGiven.next {seed n : Nat} {t : Twister} (h : HasGiven seed n t) :
    t.next.1.toNat = Recurrence.temper (word seed (n + wordCount)) ∧
      HasGiven seed (n + 1) t.next.2 := by
  obtain ⟨start, hdvd, hwindow, hpos, hnext⟩ := h
  have hmod : start % wordCount = 0 := Nat.mod_eq_zero_of_dvd hdvd
  -- The next output is in the window, or it is the first of the window behind it.
  by_cases hlt : t.position < wordCount
  · rw [Twister.next, dif_pos hlt]
    refine ⟨?_, start, hdvd, hwindow, by simp, by simp only; omega⟩
    have hindex : (n + wordCount) % wordCount = t.position := by
      rw [← hnext, Nat.add_mod, hmod, Nat.zero_add, Nat.mod_mod, Nat.mod_eq_of_lt hlt]
    have hmember := hwindow (n + wordCount) (by omega) (by omega) (by omega)
    simp only [hindex] at hmember
    rw [toNat_temper, hmember]
  · have hend : t.position = wordCount := Nat.le_antisymm t.position_le (Nat.le_of_not_lt hlt)
    obtain rfl : start = n := by omega
    obtain ⟨houtput, hwords, hposition⟩ := next_of_end hlt
    have hregenerated := hwindow.regenerate hdvd
    refine ⟨?_, start + wordCount, (Nat.dvd_add_right hdvd).2 (Nat.dvd_refl _),
      hwords ▸ hregenerated, by omega, by omega⟩
    have hindex : (start + wordCount) % wordCount = 0 := by rw [Nat.add_mod_right, hmod]
    have hmember := hregenerated (start + wordCount) le_rfl (by simp) (by rw [hindex]; decide)
    simp only [hindex] at hmember
    rw [houtput, toNat_temper, hmember]

end Twister

end Primitives
