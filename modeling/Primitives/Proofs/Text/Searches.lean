import Mathlib.Order.Bounds.Image
import Primitives.Library.TextOperations
import Primitives.Proofs.Text.Occurrences

/-!
# Searches in texts

A text is found at a position when the substring of its length there is the text, so the empty text is found
everywhere up to the end of a text and occurrences may overlap. The searches from the front and from the back give
the least and the greatest of these positions, or -1 if there is none. Reversing both texts reverses the order of
the positions, so that the last occurrence is the first one seen from the end.

## Main definitions

* `Text.IsFoundAt`: positions at which a text is found, as integers.

## Main results

* `Text.isFoundAt_iff`: substrings and occurrences.
* `Text.indexOf?_eq_some_iff`, `Text.last?_eq_some_iff`: the least and the greatest position.
* `Text.indexOf?_reverse`: the last occurrence seen from the end.
* `Text.search_extreme`: all searches and questions at once.
-/

namespace Primitives.Text

variable {s t : Text} {i p : Nat} {start : Int}

/-! ### Positions of occurrences -/

theorem OccursAt.add_length_le (h : OccursAt t s i) : i + t.length ≤ s.length := by
  obtain ⟨front, back, rfl, rfl⟩ := h
  simp only [List.length_append]
  omega

theorem occursAt_iff_drop : OccursAt t s i ↔ i ≤ s.length ∧ t <+: s.drop i := by
  constructor
  · rintro ⟨front, back, rfl, rfl⟩
    refine ⟨by simp only [List.length_append]; omega, back, ?_⟩
    rw [List.append_assoc, List.drop_left]
  · rintro ⟨hle, back, hdrop⟩
    refine ⟨s.take i, back, ?_, List.length_take_of_le hle⟩
    rw [List.append_assoc, hdrop, List.take_append_drop]

/-- Dropping characters from the front moves the occurrences behind them. -/
theorem occursAt_drop_iff {n : Nat} (h : n ≤ s.length) : OccursAt t (s.drop n) i ↔ OccursAt t s (i + n) := by
  rw [occursAt_iff_drop, occursAt_iff_drop, List.drop_drop, List.length_drop, Nat.add_comm i n]
  exact and_congr_left' (by omega)

theorem occursAt_drop_sub_iff {n : Nat} (h : n ≤ s.length) (hi : n ≤ i) :
    OccursAt t (s.drop n) (i - n) ↔ OccursAt t s i := by
  rw [occursAt_drop_iff h, Nat.sub_add_cancel hi]

/-- An occurrence seen from the other end. -/
theorem OccursAt.reverse (h : OccursAt t s i) :
    OccursAt t.reverse s.reverse (s.length - t.length - i) := by
  obtain ⟨front, back, rfl, rfl⟩ := h
  refine ⟨back.reverse, front.reverse, by simp, ?_⟩
  simp only [List.length_append, List.length_reverse]
  omega

theorem occursAt_nil_iff : OccursAt t [] i ↔ t = [] ∧ i = 0 := by
  constructor
  · intro h
    have hlength := h.add_length_le
    rw [List.length_nil] at hlength
    exact ⟨List.length_eq_zero_iff.1 (by omega), by omega⟩
  · rintro ⟨rfl, rfl⟩
    exact occursAt_zero_iff.2 List.prefix_rfl

/-! ### Substrings -/

/-- `t` is found in `s` at a position if the substring of its length there is `t`. -/
def IsFoundAt (t s : Text) (p : Int) : Prop :=
  0 ≤ p ∧ p + t.length ≤ s.length ∧ s.substring p (some (p + t.length)) = t

instance (t s : Text) (p : Int) : Decidable (IsFoundAt t s p) :=
  inferInstanceAs (Decidable (_ ∧ _ ∧ _))

theorem substring_natCast {n : Nat} (h : i + n ≤ s.length) : s.substring i (some (i + n)) = (s.drop i).take n := by
  have hstart : s.clamp i = i := by
    rw [clamp, Int.toNat_natCast]
    omega
  have hstop : s.clamp (i + n) = i + n := by
    rw [clamp, ← Int.natCast_add, Int.toNat_natCast]
    omega
  rw [substring, Option.getD_some, hstart, hstop, part, List.drop_take, Nat.add_sub_cancel_left]

theorem isFoundAt_natCast : IsFoundAt t s i ↔ OccursAt t s i := by
  constructor
  · rintro ⟨-, hle, heq⟩
    have hle : i + t.length ≤ s.length := by omega
    rw [substring_natCast hle] at heq
    exact occursAt_iff_drop.2 ⟨by omega, List.prefix_iff_eq_take.2 heq.symm⟩
  · intro h
    have hle := h.add_length_le
    refine ⟨Int.natCast_nonneg i, by omega, ?_⟩
    rw [substring_natCast hle]
    exact (List.prefix_iff_eq_take.1 (occursAt_iff_drop.1 h).2).symm

/-- A text is found where it occurs. -/
theorem isFoundAt_iff {p : Int} : IsFoundAt t s p ↔ ∃ i : Nat, OccursAt t s i ∧ (i : Int) = p := by
  constructor
  · intro h
    obtain ⟨i, rfl⟩ := Int.eq_ofNat_of_zero_le h.1
    exact ⟨i, isFoundAt_natCast.1 h, rfl⟩
  · rintro ⟨i, h, rfl⟩
    exact isFoundAt_natCast.2 h

/-- The positions from a given one on at which a text is found. -/
theorem setOf_isFoundAt (t s : Text) (start : Int) :
    {p | max start 0 ≤ p ∧ IsFoundAt t s p} = Nat.cast '' {i | start.toNat ≤ i ∧ OccursAt t s i} := by
  ext p
  constructor
  · rintro ⟨hle, hfound⟩
    obtain ⟨i, hoccurs, rfl⟩ := isFoundAt_iff.1 hfound
    exact ⟨i, ⟨by omega, hoccurs⟩, rfl⟩
  · rintro ⟨i, ⟨hle, hoccurs⟩, rfl⟩
    exact ⟨by omega, isFoundAt_natCast.2 hoccurs⟩

/-! ### The first occurrence -/

theorem first?_eq_some_iff : first? t s = some p ↔ IsLeast {i | OccursAt t s i} p := by
  rw [first?_eq_map_cut?, Option.map_eq_some_iff]
  constructor
  · rintro ⟨⟨before, after⟩, hcut, rfl⟩
    obtain ⟨heq, hfirst⟩ := cut?_eq_some_iff.1 hcut
    exact ⟨⟨before, after, heq, rfl⟩, fun i hoccurs => Nat.not_lt.1 fun hlt => hfirst i hlt hoccurs⟩
  · rintro ⟨⟨before, after, heq, rfl⟩, hleast⟩
    have hfirst : ∀ i < before.length, ¬ OccursAt t s i :=
      fun i hlt hoccurs => Nat.not_lt.2 (hleast hoccurs) hlt
    exact ⟨(before, after), cut?_eq_some_iff.2 ⟨heq, hfirst⟩, rfl⟩

theorem first?_eq_none_iff : first? t s = none ↔ ∀ i, ¬ OccursAt t s i := by
  rw [first?_eq_map_cut?, Option.map_eq_none_iff, cut?_eq_none_iff]

/-- The search from a position on gives the least position that is not in front of it. -/
theorem indexOf?_eq_some_iff :
    s.indexOf? t start = some p ↔ IsLeast {i | start.toNat ≤ i ∧ OccursAt t s i} p := by
  by_cases hle : start.toNat ≤ s.length
  · rw [indexOf?, if_pos hle, Option.map_eq_some_iff]
    constructor
    · rintro ⟨q, hfirst, rfl⟩
      obtain ⟨hoccurs, hleast⟩ := first?_eq_some_iff.1 hfirst
      refine ⟨⟨Nat.le_add_left .., (occursAt_drop_iff hle).1 hoccurs⟩, ?_⟩
      rintro i ⟨hi, hoccurs'⟩
      have hq : q ≤ i - start.toNat := hleast ((occursAt_drop_sub_iff hle hi).2 hoccurs')
      omega
    · rintro ⟨⟨hp, hoccurs⟩, hleast⟩
      refine ⟨p - start.toNat, first?_eq_some_iff.2 ⟨(occursAt_drop_sub_iff hle hp).2 hoccurs, ?_⟩,
        Nat.sub_add_cancel hp⟩
      intro i hi
      have hpi : p ≤ i + start.toNat := hleast ⟨Nat.le_add_left .., (occursAt_drop_iff hle).1 hi⟩
      omega
  · rw [indexOf?, if_neg hle]
    refine iff_of_false (by simp) ?_
    rintro ⟨⟨hp, hoccurs⟩, -⟩
    have hlength := hoccurs.add_length_le
    omega

theorem indexOf?_eq_none_iff : s.indexOf? t start = none ↔ ∀ i, start.toNat ≤ i → ¬ OccursAt t s i := by
  by_cases hle : start.toNat ≤ s.length
  · rw [indexOf?, if_pos hle, Option.map_eq_none_iff, first?_eq_none_iff]
    constructor
    · intro h i hi hoccurs
      exact h (i - start.toNat) ((occursAt_drop_sub_iff hle hi).2 hoccurs)
    · intro h i hoccurs
      exact h (i + start.toNat) (Nat.le_add_left ..) ((occursAt_drop_iff hle).1 hoccurs)
  · rw [indexOf?, if_neg hle]
    refine iff_of_true rfl fun i hi hoccurs => ?_
    have hlength := hoccurs.add_length_le
    omega

/-! ### The last occurrence -/

theorem last?_eq_none_iff : last? t s = none ↔ ∀ i, ¬ OccursAt t s i := by
  induction s with
  | nil => simp [last?, occursAt_nil_iff]
  | cons c s ih =>
    rw [last?]
    cases hlast : last? t s with
    | some p =>
      refine iff_of_false (by simp) fun h => ?_
      have hnone := ih.2 fun i hoccurs => h (i + 1) (occursAt_cons_succ_iff.2 hoccurs)
      exact nomatch hlast.symm.trans hnone
    | none =>
      have hrest := ih.1 hlast
      simp only [ite_eq_right_iff, reduceCtorEq, imp_false, List.isPrefixOf_iff_prefix]
      constructor
      · intro hfront i hoccurs
        cases i with
        | zero => exact hfront (occursAt_zero_iff.1 hoccurs)
        | succ i => exact hrest i (occursAt_cons_succ_iff.1 hoccurs)
      · exact fun h hfront => h 0 (occursAt_zero_iff.2 hfront)

theorem isGreatest_of_last? (h : last? t s = some p) : IsGreatest {i | OccursAt t s i} p := by
  induction s generalizing p with
  | nil =>
    obtain ⟨rfl, rfl⟩ : t = [] ∧ 0 = p := by simpa [last?] using h
    exact ⟨occursAt_nil_iff.2 ⟨rfl, rfl⟩, fun i hoccurs => (occursAt_nil_iff.1 hoccurs).2.le⟩
  | cons c s ih =>
    rw [last?] at h
    cases hlast : last? t s with
    | some q =>
      rw [hlast] at h
      obtain rfl : q + 1 = p := Option.some.inj h
      obtain ⟨hoccurs, hgreatest⟩ := ih hlast
      refine ⟨occursAt_cons_succ_iff.2 hoccurs, fun i hi => ?_⟩
      cases i with
      | zero => exact Nat.zero_le _
      | succ i => exact Nat.succ_le_succ (hgreatest (occursAt_cons_succ_iff.1 hi))
    | none =>
      -- Nothing occurs behind the first character, so that only the front is left.
      obtain ⟨hfront, rfl⟩ : t <+: c :: s ∧ 0 = p := by simpa [hlast] using h
      refine ⟨occursAt_zero_iff.2 hfront, fun i hi => ?_⟩
      cases i with
      | zero => exact le_rfl
      | succ i => exact absurd (occursAt_cons_succ_iff.1 hi) (last?_eq_none_iff.1 hlast i)

/-- The search from the back gives the greatest position. -/
theorem last?_eq_some_iff : last? t s = some p ↔ IsGreatest {i | OccursAt t s i} p := by
  refine ⟨isGreatest_of_last?, fun h => ?_⟩
  cases hlast : last? t s with
  | none => exact absurd h.1 (last?_eq_none_iff.1 hlast p)
  | some q => rw [(isGreatest_of_last? hlast).unique h]

/-! ### Both searches -/

/-- The greatest position is the least one seen from the other end. -/
theorem isLeast_reverse (h : IsGreatest {i | OccursAt t s i} p) :
    IsLeast {i | OccursAt t.reverse s.reverse i} (s.length - t.length - p) := by
  refine ⟨h.1.reverse, fun i hi => ?_⟩
  have hback := OccursAt.reverse hi
  have hlength := hi.add_length_le
  simp only [List.reverse_reverse, List.length_reverse] at hback hlength
  have hle : s.length - t.length - i ≤ p := h.2 hback
  omega

/-- The first occurrence in the reversed text is the last one. -/
theorem indexOf?_reverse (h : last? t s = some p) :
    indexOf? s.reverse t.reverse 0 = some (s.length - t.length - p) := by
  refine indexOf?_eq_some_iff.2 ?_
  simpa using isLeast_reverse (last?_eq_some_iff.1 h)

/-! ### Answers of searches -/

theorem isLeast_image_natCast {positions : Set Nat} (h : IsLeast positions p) :
    IsLeast ((Nat.cast : Nat → Int) '' positions) p := by
  refine ⟨Set.mem_image_of_mem _ h.1, ?_⟩
  rintro _ ⟨i, hi, rfl⟩
  exact Int.ofNat_le.2 (h.2 hi)

/-- Only the answer that there is no position is -1. -/
theorem positionValue_ne_iff {o : Option Nat} : positionValue o ≠ .int (-1) ↔ o ≠ none := by
  cases o with
  | none => simp [positionValue]
  | some p => simp [positionValue]

theorem exists_positionValue_indexOf? (s t : Text) (start : Int) :
    ∃ p, positionValue (s.indexOf? t start) = .int p ∧
      (IsLeast {q | max start 0 ≤ q ∧ IsFoundAt t s q} p ∨
        p = -1 ∧ ∀ q, max start 0 ≤ q → ¬ IsFoundAt t s q) := by
  cases hindex : s.indexOf? t start with
  | some p =>
    refine ⟨p, rfl, .inl ?_⟩
    rw [setOf_isFoundAt]
    exact isLeast_image_natCast (indexOf?_eq_some_iff.1 hindex)
  | none =>
    refine ⟨-1, rfl, .inr ⟨rfl, fun q hle hfound => ?_⟩⟩
    obtain ⟨i, hoccurs, rfl⟩ := isFoundAt_iff.1 hfound
    exact indexOf?_eq_none_iff.1 hindex i (by omega) hoccurs

theorem exists_positionValue_last? (s t : Text) :
    ∃ p, positionValue (last? t s) = .int p ∧
      (IsGreatest {q | IsFoundAt t s q} p ∨ p = -1 ∧ ∀ q, ¬ IsFoundAt t s q) := by
  cases hlast : last? t s with
  | some p =>
    obtain ⟨hoccurs, hgreatest⟩ := last?_eq_some_iff.1 hlast
    refine ⟨p, rfl, .inl ⟨isFoundAt_natCast.2 hoccurs, fun q hfound => ?_⟩⟩
    obtain ⟨i, hi, rfl⟩ := isFoundAt_iff.1 hfound
    exact Int.ofNat_le.2 (hgreatest hi)
  | none =>
    refine ⟨-1, rfl, .inr ⟨rfl, fun q hfound => ?_⟩⟩
    obtain ⟨i, hoccurs, rfl⟩ := isFoundAt_iff.1 hfound
    exact last?_eq_none_iff.1 hlast i hoccurs

/-- The answers of the search from the back and of the search for the reversed text belong together. -/
theorem exists_positionValue_reverse {q : Int} (h : IsFoundAt t s q) :
    ∃ p, positionValue (indexOf? s.reverse t.reverse 0) = .int p ∧
      positionValue (last? t s) = .int (s.length - t.length - p) := by
  obtain ⟨i, hoccurs, rfl⟩ := isFoundAt_iff.1 h
  cases hlast : last? t s with
  | none => exact absurd hoccurs (last?_eq_none_iff.1 hlast i)
  | some p =>
    have hlength := (last?_eq_some_iff.1 hlast).1.add_length_le
    have hcast : (p : Int) = s.length - t.length - (s.length - t.length - p : Nat) := by omega
    rw [indexOf?_reverse hlast]
    exact ⟨_, rfl, congrArg Value.int hcast⟩

/-! ### Questions -/

theorem includes_iff : s.includes t ↔ ∃ i, OccursAt t s i := by
  rw [includes, Option.isSome_iff_ne_none, ne_eq, first?_eq_none_iff, not_forall_not]

theorem includes_iff_indexOf? : s.includes t ↔ s.indexOf? t 0 ≠ none := by
  rw [includes_iff, ne_eq, indexOf?_eq_none_iff]
  simp

theorem includes_iff_last? : s.includes t ↔ last? t s ≠ none := by
  rw [includes_iff, ne_eq, last?_eq_none_iff, not_forall_not]

theorem startsWith_iff : s.startsWith t ↔ IsFoundAt t s 0 := by
  rw [startsWith, List.isPrefixOf_iff_prefix, ← occursAt_zero_iff, ← isFoundAt_natCast, Int.natCast_zero]

theorem endsWith_iff : s.endsWith t ↔ IsFoundAt t s (s.length - t.length) := by
  rw [endsWith, List.isSuffixOf_iff_suffix, isFoundAt_iff]
  constructor
  · rintro ⟨front, rfl⟩
    refine ⟨front.length, ⟨front, [], by simp, rfl⟩, ?_⟩
    simp only [List.length_append]
    omega
  · rintro ⟨i, ⟨front, back, rfl, rfl⟩, hi⟩
    have hback : back = [] := by
      simp only [List.length_append] at hi
      exact List.length_eq_zero_iff.1 (by omega)
    rw [hback, List.append_nil]
    exact List.suffix_append front t

/-- **Searches give the extreme positions.** The search from a position on gives the least position from there on at
which a text is found, the search from the back the greatest one, and both give -1 if there is none. A text is
contained if neither gives -1; it is at the front if it is found at zero, and at the end if it is found where its
length is left. The last occurrence is the first one of the reversed texts, seen from the end. -/
theorem search_extreme (s t : Text) :
    (∀ start : Int, ∃ p, positionValue (s.indexOf? t start) = .int p ∧
      (IsLeast {q | max start 0 ≤ q ∧ IsFoundAt t s q} p ∨
        p = -1 ∧ ∀ q, max start 0 ≤ q → ¬ IsFoundAt t s q)) ∧
    (∃ p, positionValue (last? t s) = .int p ∧
      (IsGreatest {q | IsFoundAt t s q} p ∨ p = -1 ∧ ∀ q, ¬ IsFoundAt t s q)) ∧
    (s.includes t ↔ positionValue (s.indexOf? t 0) ≠ .int (-1)) ∧
    (s.includes t ↔ positionValue (last? t s) ≠ .int (-1)) ∧
    (s.startsWith t ↔ IsFoundAt t s 0) ∧
    (s.endsWith t ↔ IsFoundAt t s (s.length - t.length)) ∧
    ((∃ q, IsFoundAt t s q) → ∃ p, positionValue (indexOf? s.reverse t.reverse 0) = .int p ∧
      positionValue (last? t s) = .int (s.length - t.length - p)) := by
  refine ⟨exists_positionValue_indexOf? s t, exists_positionValue_last? s t, ?_, ?_, startsWith_iff,
    endsWith_iff, fun ⟨q, hfound⟩ => exists_positionValue_reverse hfound⟩
  · rw [positionValue_ne_iff, includes_iff_indexOf?]
  · rw [positionValue_ne_iff, includes_iff_last?]

/-- The two occurrences of `aa` in `aaa` overlap: the search from the second position on finds the second one, which
is the last one and, seen from the end, the first. -/
theorem search_extreme_overlapping :
    IsFoundAt ['a', 'a'] ['a', 'a', 'a'] 0 ∧
      IsLeast {q | max 1 0 ≤ q ∧ IsFoundAt ['a', 'a'] ['a', 'a', 'a'] q} 1 ∧
      positionValue (last? ['a', 'a'] ['a', 'a', 'a']) = .int (3 - 2 - 0) := by
  have hfound : IsFoundAt ['a', 'a'] ['a', 'a', 'a'] 0 := by decide
  obtain ⟨hindex, -, -, -, -, -, hreverse⟩ := search_extreme ['a', 'a', 'a'] ['a', 'a']
  obtain ⟨p, hp, hleast⟩ := hindex 1
  obtain rfl : 1 = p := Value.int.inj hp
  obtain ⟨p', hp', hlast⟩ := hreverse ⟨0, hfound⟩
  obtain rfl : 0 = p' := Value.int.inj hp'
  exact ⟨hfound, hleast.resolve_right (by simp), hlast⟩

end Primitives.Text
