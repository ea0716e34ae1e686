import Primitives.Text.Search

/-!
# Positions of occurrences

A text occurs in another one at a position when it stands behind as many characters there. Whether it does is
decided by the characters up to its end. The search that parts a text around an occurrence finds the first one,
and finds none only if there is none.

## Main definitions

* `Text.OccursAt`: occurrences at a position.

## Main results

* `Text.occursAt_append_iff`: what follows an occurrence does not matter.
* `Text.cut?_eq_none_iff`, `Text.cut?_eq_some_iff`: the search for the first occurrence.
* `Text.first?_eq_map_cut?`: the first position and the parting around it.
-/

namespace Primitives

/-- A member of a list has a last occurrence. -/
theorem exists_last_of_mem {α : Type} {a : α} {l : List α} (h : a ∈ l) :
    ∃ front back, l = front ++ a :: back ∧ a ∉ back := by
  obtain ⟨back, front, heq, hback⟩ := List.eq_append_cons_of_mem (List.mem_reverse.2 h)
  refine ⟨front.reverse, back.reverse, ?_, by rwa [List.mem_reverse]⟩
  rw [← List.reverse_reverse l, heq]
  simp

namespace Text

variable {t s before after : Text} {i : Nat}

/-- `t` stands in `s` behind `i` characters. -/
def OccursAt (t s : Text) (i : Nat) : Prop :=
  ∃ front back, s = front ++ t ++ back ∧ front.length = i

theorem occursAt_zero_iff : OccursAt t s 0 ↔ t <+: s := by
  constructor
  · rintro ⟨front, back, rfl, hlength⟩
    rw [List.length_eq_zero_iff.1 hlength]
    exact List.prefix_append t back
  · rintro ⟨back, rfl⟩
    exact ⟨[], back, rfl, rfl⟩

theorem occursAt_cons_succ_iff {c : Char} : OccursAt t (c :: s) (i + 1) ↔ OccursAt t s i := by
  constructor
  · rintro ⟨front, back, heq, hlength⟩
    obtain ⟨first, front, rfl⟩ := List.exists_cons_of_length_eq_add_one hlength
    exact ⟨front, back, (List.cons.inj heq).2, Nat.succ.inj hlength⟩
  · rintro ⟨front, back, rfl, rfl⟩
    exact ⟨c :: front, back, rfl, rfl⟩

/-- An occurrence is decided by the characters up to its end. -/
theorem occursAt_append_iff (h : i + t.length ≤ s.length) (rest : Text) :
    OccursAt t (s ++ rest) i ↔ OccursAt t s i := by
  constructor
  · rintro ⟨front, back, heq, rfl⟩
    have hlength : (front ++ t).length ≤ s.length := by rwa [List.length_append]
    obtain ⟨back', rfl⟩ := List.prefix_of_prefix_length_le ⟨back, heq.symm⟩ (List.prefix_append s rest) hlength
    exact ⟨front, back', rfl, rfl⟩
  · rintro ⟨front, back, rfl, rfl⟩
    exact ⟨front, back ++ rest, List.append_assoc .., rfl⟩

/-! ### The first occurrence -/

theorem cut?_cons_of_front {c : Char} (h : t <+: c :: s) :
    cut? t (c :: s) = some ([], (c :: s).drop t.length) := by
  rw [cut?, if_pos (List.isPrefixOf_iff_prefix.2 h)]

theorem cut?_cons_of_not_front {c : Char} (h : ¬ t <+: c :: s) :
    cut? t (c :: s) = (cut? t s).map fun (before, after) => (c :: before, after) := by
  rw [cut?, if_neg fun hprefix => h (List.isPrefixOf_iff_prefix.1 hprefix)]

theorem cut?_eq_none_iff : cut? t s = none ↔ ∀ i, ¬ OccursAt t s i := by
  induction s with
  | nil =>
    cases t with
    | nil => exact iff_of_false (by simp [cut?]) fun h => h 0 ⟨[], [], rfl, rfl⟩
    | cons c t =>
      refine iff_of_true rfl fun i hoccurs => ?_
      obtain ⟨front, back, heq, -⟩ := hoccurs
      simp at heq
  | cons c s ih =>
    by_cases hprefix : t <+: c :: s
    · rw [cut?_cons_of_front hprefix]
      exact iff_of_false (by simp) fun h => h 0 (occursAt_zero_iff.2 hprefix)
    · rw [cut?_cons_of_not_front hprefix, Option.map_eq_none_iff, ih]
      constructor
      · intro h i hoccurs
        cases i with
        | zero => exact hprefix (occursAt_zero_iff.1 hoccurs)
        | succ i => exact h i (occursAt_cons_succ_iff.1 hoccurs)
      · exact fun h i hoccurs => h (i + 1) (occursAt_cons_succ_iff.2 hoccurs)

/-- Nothing occurs in front of the place where a text is parted. -/
theorem not_occursAt_of_cut? (h : cut? t s = some (before, after)) :
    ∀ i < before.length, ¬ OccursAt t s i := by
  induction s generalizing before with
  | nil =>
    obtain ⟨rfl, -⟩ : before = [] ∧ t = [] ∧ after = [] := by simpa using (eq_of_cut? h).symm
    simp
  | cons c s ih =>
    by_cases hprefix : t <+: c :: s
    · rw [cut?_cons_of_front hprefix] at h
      obtain rfl : [] = before := (Prod.mk.inj (Option.some.inj h)).1
      simp
    · rw [cut?_cons_of_not_front hprefix] at h
      obtain ⟨⟨front, back⟩, hcut, heq⟩ := Option.map_eq_some_iff.1 h
      obtain ⟨rfl, rfl⟩ := Prod.mk.inj heq
      intro i hi hoccurs
      cases i with
      | zero => exact hprefix (occursAt_zero_iff.1 hoccurs)
      | succ i => exact ih hcut i (Nat.lt_of_succ_lt_succ hi) (occursAt_cons_succ_iff.1 hoccurs)

/-- A text is parted around the first occurrence. -/
theorem cut?_eq_some_iff :
    cut? t s = some (before, after) ↔
      s = before ++ t ++ after ∧ ∀ i < before.length, ¬ OccursAt t s i := by
  refine ⟨fun h => ⟨eq_of_cut? h, not_occursAt_of_cut? h⟩, fun ⟨heq, hfirst⟩ => ?_⟩
  have hoccurs : OccursAt t s before.length := ⟨before, after, heq, rfl⟩
  cases hcut : cut? t s with
  | none => exact absurd hoccurs (cut?_eq_none_iff.1 hcut _)
  | some parts =>
    obtain ⟨front, back⟩ := parts
    have heq' := eq_of_cut? hcut
    have hlength : before.length = front.length :=
      Nat.le_antisymm (Nat.not_lt.1 fun hlt => hfirst _ hlt ⟨front, back, heq', rfl⟩)
        (Nat.not_lt.1 fun hlt => not_occursAt_of_cut? hcut _ hlt hoccurs)
    -- Two occurrences behind equally many characters part the text alike.
    have happend : before ++ (t ++ after) = front ++ (t ++ back) := by
      rw [← List.append_assoc, ← List.append_assoc, ← heq, heq']
    obtain ⟨rfl, hrest⟩ := List.append_inj happend hlength
    rw [List.append_cancel_left hrest]

/-- The first position is the place where the text is parted. -/
theorem first?_eq_map_cut? (t s : Text) : first? t s = (cut? t s).map fun parts => parts.1.length := by
  induction s with
  | nil => cases t <;> rfl
  | cons c s ih =>
    by_cases h : t <+: c :: s
    · rw [cut?_cons_of_front h, first?, if_pos (List.isPrefixOf_iff_prefix.2 h)]
      rfl
    · rw [cut?_cons_of_not_front h, first?, if_neg fun hprefix => h (List.isPrefixOf_iff_prefix.1 hprefix), ih,
        Option.map_map, Option.map_map]
      rfl

/-! ### Single characters -/

theorem OccursAt.mem {c : Char} (h : OccursAt [c] s i) : c ∈ s := by
  obtain ⟨front, back, rfl, -⟩ := h
  simp

theorem cut?_singleton_of_notMem {c : Char} (h : c ∉ s) : cut? [c] s = none :=
  cut?_eq_none_iff.2 fun _ hoccurs => h hoccurs.mem

end Text

end Primitives
