import Mathlib.Data.List.TakeWhile
import Primitives.Text.Ascii

/-!
# Classes of characters

A part of a text that lies in a class of characters is found by taking characters while they belong to it, and
a text without blanks is not changed by trimming. Trimming takes blanks from both ends of a text, so that it
does not see blanks that are put there.

## Main definitions

* `Text.IsBetweenBlanks`: texts with blanks around them.

## Main results

* `Text.takeWhile_dropWhile_append`: a part in a class and what follows it.
* `Text.trim_of_forall`: texts without blanks.
* `Text.trim_append`: blanks around a text.
* `Text.isBetweenBlanks_trim`: trimming takes blanks.
-/

namespace Primitives.Text

theorem consistsOf_iff {p : Char → Bool} {s : Text} : consistsOf p s ↔ s ≠ [] ∧ ∀ c ∈ s, p c := by
  simp [consistsOf]

/-- A part of a text ends in front of a character that does not belong to it. -/
theorem takeWhile_dropWhile_append {p : Char → Bool} {s t : Text} (hs : ∀ c ∈ s, p c)
    (ht : ∀ c ∈ t.head?, p c = false) :
    (s ++ t).takeWhile p = s ∧ (s ++ t).dropWhile p = t := by
  rw [List.takeWhile_append_of_pos hs, List.dropWhile_append_of_pos hs]
  cases t with
  | nil => simp
  | cons c t => simp [ht c rfl]

/-- Nothing is dropped from the front of a text that has no character of a class. -/
theorem dropWhile_of_forall {p : Char → Bool} {s : Text} (h : ∀ c ∈ s, p c = false) : s.dropWhile p = s := by
  cases s with
  | nil => rfl
  | cons c s => rw [List.dropWhile_cons_of_neg (by simp [h c List.mem_cons_self])]

/-- Trimming keeps a text without blanks. -/
theorem trim_of_forall {s : Text} (h : ∀ c ∈ s, isBlank c = false) : trim s = s := by
  have hreverse : ∀ c ∈ s.reverse, isBlank c = false := fun c hc => h c (List.mem_reverse.1 hc)
  rw [trim, trimLeft, dropWhile_of_forall h, trimRight, dropWhile_of_forall hreverse, List.reverse_reverse]

/-- A text with blanks in front of it and behind it. -/
def IsBetweenBlanks (t s : Text) : Prop :=
  ∃ u v, (∀ c ∈ u, isBlank c) ∧ (∀ c ∈ v, isBlank c) ∧ s = u ++ t ++ v

/-- Trimming does not see blanks around a text. -/
theorem trim_append {u v : Text} (hu : ∀ c ∈ u, isBlank c) (hv : ∀ c ∈ v, isBlank c) (s : Text) :
    trim (u ++ s ++ v) = trim s := by
  have hright : ∀ t : Text, trimRight (t ++ v) = trimRight t := fun t => by
    rw [trimRight, trimRight, List.reverse_append,
      List.dropWhile_append_of_pos fun c hc => hv c (List.mem_reverse.1 hc)]
  have hblanks : trimLeft v = [] := List.dropWhile_eq_nil_iff.2 hv
  rw [trim, trim, List.append_assoc, trimLeft, List.dropWhile_append_of_pos hu, List.dropWhile_append]
  split
  · next hempty =>
    have hs : trimLeft s = [] := List.isEmpty_iff.1 hempty
    rw [hs, ← trimLeft, hblanks]
  · exact hright _

/-- What trimming leaves stands between blanks. -/
theorem isBetweenBlanks_trim (s : Text) : IsBetweenBlanks (trim s) s := by
  refine ⟨s.takeWhile isBlank, ((trimLeft s).reverse.takeWhile isBlank).reverse,
    fun c hc => List.mem_takeWhile_imp hc,
    fun c hc => List.mem_takeWhile_imp (List.mem_reverse.1 hc), ?_⟩
  rw [List.append_assoc, trim, trimRight, ← List.reverse_append, List.takeWhile_append_dropWhile,
    List.reverse_reverse, trimLeft, List.takeWhile_append_dropWhile]

/-- Trimming finds a text without blanks that stands between blanks. -/
theorem IsBetweenBlanks.trim_eq {t s : Text} (h : IsBetweenBlanks t s) (ht : ∀ c ∈ t, isBlank c = false) :
    trim s = t := by
  obtain ⟨u, v, hu, hv, rfl⟩ := h
  rw [trim_append hu hv, trim_of_forall ht]

/-- Digits are no capital letters. -/
theorem lowerChar_of_isDigit {c : Char} (h : isDigit c) : lowerChar c = c := by
  have hupper : isUpperLetter c = false := by
    simp only [isDigit, isUpperLetter, Bool.and_eq_true, Bool.and_eq_false_iff, decide_eq_true_eq,
      decide_eq_false_iff_not, Char.le_def, UInt32.le_iff_toNat_le] at h ⊢
    have hnine : '9'.val.toNat = 57 := rfl
    have hletter : 'A'.val.toNat = 65 := rfl
    omega
  rw [lowerChar, hupper, if_neg Bool.false_ne_true]

theorem isBlank_of_isDigit {c : Char} (h : isDigit c) : isBlank c = false := by
  refine Bool.eq_false_iff.2 fun hblank => ?_
  simp only [isBlank, Bool.or_eq_true, beq_iff_eq] at hblank
  rcases hblank with ((((rfl | rfl) | rfl) | rfl) | rfl) | rfl <;> exact absurd h (by decide)

theorem isDigit_of_isBlank {c : Char} (h : isBlank c) : isDigit c = false := by
  refine Bool.eq_false_iff.2 fun hdigit => ?_
  exact Bool.false_ne_true ((isBlank_of_isDigit hdigit).symm.trans h)

end Primitives.Text
