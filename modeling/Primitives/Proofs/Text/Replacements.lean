import Mathlib.Tactic.Ring
import Primitives.Proofs.Text.Parts

/-!
# Replacement

A text is replaced at the occurrences at which it would be split: both scans part the text around the first
occurrence and go on behind it. So the replaced text is the parts joined with the replacement, whatever the
replacement holds, since it is not searched again. Replacing the first occurrence only is a matter of two slices.

## Main results

* `Text.replace_join`: a parting joined with another text.
* `Text.length_join`: the length of joined parts.
* `Text.replace_eq_join_split`: replacement by splitting and joining.
-/

namespace Primitives.Text

variable {a b s before after : Text}

/-! ### Replacing at every occurrence -/

section Search

variable (ha : a ≠ [])

theorem replaceAll_of_none (b : Text) (h : cut? a s = none) : replaceAll a b ha s = s := by
  rw [replaceAll]
  split
  · rfl
  · next hcut => simp [h] at hcut

theorem replaceAll_of_some (b : Text) (h : cut? a s = some (before, after)) :
    replaceAll a b ha s = before ++ b ++ replaceAll a b ha after := by
  rw [replaceAll]
  split
  · next hcut => simp [h] at hcut
  · next hcut =>
    obtain ⟨rfl, rfl⟩ := Prod.mk.inj (Option.some.inj (h.symm.trans hcut))
    rfl

/-- The scans for splitting and for replacing stop at the same occurrences. -/
theorem replaceAll_eq_join_splitAt (b s : Text) : replaceAll a b ha s = join (splitAt a ha s) b := by
  fun_induction splitAt a ha s with
  | case1 s hcut =>
    rw [replaceAll_of_none ha b hcut, join, List.intercalate_singleton]
  | case2 s before after hcut ih =>
    obtain ⟨p, parts, hparts⟩ := exists_splitAt_eq_cons ha after
    rw [replaceAll_of_some ha b hcut, ih, hparts, join, join, List.intercalate_cons_cons]

end Search

theorem replace_of_cut?_eq_some (ha : a ≠ []) (b : Text) (h : cut? a s = some (before, after)) :
    s.replace a b = before ++ b ++ after.replace a b := by
  rw [replace, replace, dif_neg ha, dif_neg ha, replaceAll_of_some ha b h]

theorem replace_eq_join (ha : a ≠ []) (s b : Text) : s.replace a b = join (s.split a) b := by
  rw [replace, dif_neg ha, split, dif_neg ha, replaceAll_eq_join_splitAt]

/-- A parting that is joined with `a` is joined with `b` when `a` is replaced by `b`. -/
theorem replace_join (ha : a ≠ []) {parts : List Text} (h : IsParting a parts) (b : Text) :
    (join parts a).replace a b = join parts b := by
  rw [replace_eq_join ha, (split_eq_iff ha).2 ⟨rfl, h⟩]

/-! ### Lengths -/

/-- One delimiter less than parts stands between them. -/
theorem length_join (p : Text) (parts : List Text) (d : Text) :
    (join (p :: parts) d).length = p.length + (parts.map List.length).sum + parts.length * d.length := by
  induction parts generalizing p with
  | nil => simp [join]
  | cons q parts ih =>
    have htail : (d.intercalate (q :: parts)).length =
        q.length + (parts.map List.length).sum + parts.length * d.length := ih q
    rw [join, List.intercalate_cons_cons, List.length_append, List.length_append, htail, List.map_cons,
      List.sum_cons, List.length_cons, Nat.succ_mul]
    omega

/-- Another delimiter changes the length at every place between two parts. -/
theorem length_join_sub_length_join {parts : List Text} (h : parts ≠ []) (a b : Text) :
    ((join parts b).length : Int) - (join parts a).length =
      (parts.length - 1) * (b.length - a.length) := by
  obtain ⟨p, parts, rfl⟩ := List.exists_cons_of_ne_nil h
  rw [length_join, length_join, List.length_cons]
  push_cast
  ring

/-! ### Replacing at the first occurrence -/

theorem indexOf?_zero (s t : Text) : s.indexOf? t 0 = (cut? t s).map fun parts => parts.1.length := by
  rw [indexOf?, Int.toNat_zero, if_pos s.length.zero_le, List.drop_zero, first?_eq_map_cut?, Option.map_map]
  rfl

theorem resolve_natCast (s : Text) (i : Nat) : s.resolve i = min i s.length := by
  rw [resolve, if_neg (Int.not_lt.2 (Int.natCast_nonneg i)), clamp, Int.toNat_natCast]

/-- The slice in front of a position. -/
theorem slice_zero_some (s : Text) (i : Nat) : s.slice 0 (some i) = s.take i := by
  rw [slice, Option.getD_some, resolve_natCast, ← Int.natCast_zero, resolve_natCast, part, Nat.zero_min,
    List.drop_zero]
  exact List.take_eq_take_min.symm

/-- The slice from a position on. -/
theorem slice_natCast_none (s : Text) (i : Nat) : s.slice i none = s.drop i := by
  rw [slice, Option.getD_none, resolve_natCast, resolve_natCast, part, Nat.min_self, List.take_length]
  exact List.drop_eq_drop_min.symm

theorem replaceFirst_of_none (b : Text) (h : cut? a s = none) : s.replaceFirst a b = s := by
  rw [replaceFirst, h]
  exact ite_self s

theorem replaceFirst_of_some (ha : a ≠ []) (b : Text) (h : cut? a s = some (before, after)) :
    s.replaceFirst a b = before ++ b ++ after := by
  rw [replaceFirst, if_neg ha, h]

/-- Nothing is replaced in a text of one part. -/
theorem replace_of_length_split_le_one (ha : a ≠ []) (b : Text) (h : (s.split a).length ≤ 1) :
    s.replace a b = s := by
  obtain ⟨hjoin, hparting⟩ := (split_eq_iff ha).1 (rfl : s.split a = s.split a)
  obtain ⟨p, hp⟩ : ∃ p, s.split a = [p] :=
    List.length_eq_one_iff.1 (Nat.le_antisymm h (List.length_pos_iff.2 hparting.ne_nil))
  rw [hp, join, List.intercalate_singleton] at hjoin
  rw [replace_eq_join ha, hp, join, List.intercalate_singleton, hjoin]

/-- A single occurrence is replaced in the same way by both operations. -/
theorem replaceFirst_eq_replace (ha : a ≠ []) (b : Text) (h : (s.split a).length ≤ 2) :
    s.replaceFirst a b = s.replace a b := by
  cases hcut : cut? a s with
  | none =>
    rw [replaceFirst_of_none b hcut, replace_of_length_split_le_one ha]
    rw [split_of_cut?_eq_none ha hcut, List.length_singleton]
  | some parts =>
    obtain ⟨before, after⟩ := parts
    rw [split_of_cut?_eq_some ha hcut, List.length_cons] at h
    have hafter : after.replace a b = after := replace_of_length_split_le_one ha b (Nat.le_of_succ_le_succ h)
    rw [replaceFirst_of_some ha b hcut, replace_of_cut?_eq_some ha b hcut, hafter]

/-- The first occurrence is replaced between the slice that ends at its position and the one behind it. -/
theorem replaceFirst_eq_slices (ha : a ≠ []) (b : Text) {i : Nat} (h : s.indexOf? a 0 = some i) :
    s.replaceFirst a b = s.slice 0 (some i) ++ b ++ s.slice (i + a.length) none := by
  rw [indexOf?_zero] at h
  obtain ⟨⟨before, after⟩, hcut, rfl⟩ := Option.map_eq_some_iff.1 h
  have hback : s.drop (before.length + a.length) = after := by
    rw [eq_of_cut? hcut, ← List.length_append, List.drop_left]
  have hfront : s.take before.length = before := by
    rw [eq_of_cut? hcut, List.append_assoc, List.take_left]
  rw [replaceFirst_of_some ha b hcut, ← Int.natCast_add, slice_natCast_none, slice_zero_some, hback, hfront]

/-- **Replacement is splitting and joining.** A text is replaced by joining its parts with the replacement, so a
parting that was joined with the search text is joined with the replacement, and the length changes by the
difference of the two texts for every part but one. Replacing the first occurrence keeps the slices around the
first position and leaves a text without an occurrence alone; where the text has at most two parts, it is the same
replacement. -/
theorem replace_eq_join_split (ha : a ≠ []) (s b : Text) :
    s.replace a b = join (s.split a) b ∧
    (∀ parts, IsParting a parts → (join parts a).replace a b = join parts b) ∧
    ((s.replace a b).length : Int) = s.length + ((s.split a).length - 1) * (b.length - a.length) ∧
    (s.indexOf? a 0 = none → s.replaceFirst a b = s) ∧
    (∀ i, s.indexOf? a 0 = some i →
      s.replaceFirst a b = s.slice 0 (some i) ++ b ++ s.slice (i + a.length) none) ∧
    ((s.split a).length ≤ 2 → s.replaceFirst a b = s.replace a b) := by
  obtain ⟨hjoin, hparting⟩ := (split_eq_iff ha).1 (rfl : s.split a = s.split a)
  refine ⟨replace_eq_join ha s b, fun parts h => replace_join ha h b, ?_, fun h => ?_,
    fun i => replaceFirst_eq_slices ha b, replaceFirst_eq_replace ha b⟩
  · have hlength := length_join_sub_length_join hparting.ne_nil a b
    rw [hjoin] at hlength
    rw [replace_eq_join ha, ← hlength]
    omega
  · rw [indexOf?_zero, Option.map_eq_none_iff] at h
    exact replaceFirst_of_none b h

/-- Of the overlapping occurrences in `aaa` only the first one counts, and the copy of `aa` that comes with the
replacement is not replaced again. -/
theorem replace_eq_join_split_overlapping :
    Text.replace ['a', 'a', 'a'] ['a', 'a'] ['a', 'a', 'b'] = ['a', 'a', 'b', 'a'] ∧
    Text.replaceFirst ['a', 'a', 'a'] ['a', 'a'] ['a', 'a', 'b'] = ['a', 'a', 'b', 'a'] ∧
    Text.replaceFirst ['x'] ['a', 'a'] ['b'] = ['x'] := by
  have ha : ['a', 'a'] ≠ [] := by decide
  have hsplit : Text.split ['a', 'a', 'a'] ['a', 'a'] = [[], ['a']] := by
    cbv
  obtain ⟨hreplace, -, -, -, hslices, -⟩ := replace_eq_join_split ha ['a', 'a', 'a'] ['a', 'a', 'b']
  obtain ⟨-, -, -, hnone, -, -⟩ := replace_eq_join_split ha ['x'] ['b']
  exact ⟨by rw [hreplace, hsplit]; rfl, hslices 0 (by decide), hnone (by decide)⟩

end Primitives.Text
