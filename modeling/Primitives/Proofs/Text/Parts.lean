import Primitives.Proofs.Text.Occurrences
import Primitives.Text.Parts

/-!
# Parts between delimiters

Joining undoes splitting. In the other direction a list of parts need not come back: a delimiter may occur in a
part, and an occurrence may begin in a part and reach into the delimiter behind it, since occurrences of a
delimiter of several characters can overlap. The parts that come back are those in which neither happens. They
are the only such parts of a text, because a text is parted around its first occurrence in one way.

## Main definitions

* `Text.IsParting`: lists of parts of which all but the last are followed by the first occurrence of the
  delimiter.

## Main results

* `Text.splitAt_join`: partings come back.
* `Text.split_eq_iff`: the parts that a text is split into.
* `Text.split_append_cons`: splitting at a character, place by place.
* `Text.split_join_inverse`: splitting and joining.
-/

namespace Primitives.Text

variable {d p q s : Text} {parts : List Text}

/-- A list of parts that are not cut short: the delimiter does not occur in the last part, and behind every
other part the first occurrence is the delimiter that follows it. -/
structure IsParting (d : Text) (parts : List Text) : Prop where
  ne_nil : parts ≠ []
  last : ∀ p ∈ parts.getLast?, ∀ i, ¬ OccursAt d p i
  front : ∀ p ∈ parts.dropLast, ∀ i < p.length, ¬ OccursAt d (p ++ d) i

namespace IsParting

theorem singleton_iff : IsParting d [p] ↔ ∀ i, ¬ OccursAt d p i := by
  constructor
  · exact fun h => h.last p rfl
  · exact fun h => ⟨by simp, by simpa using h, by simp⟩

theorem cons_iff : IsParting d (p :: q :: parts) ↔
    (∀ i < p.length, ¬ OccursAt d (p ++ d) i) ∧ IsParting d (q :: parts) := by
  constructor
  · rintro ⟨-, hlast, hfront⟩
    rw [List.dropLast_cons_cons, List.forall_mem_cons] at hfront
    exact ⟨hfront.1, by simp, by rwa [List.getLast?_cons_cons] at hlast, hfront.2⟩
  · rintro ⟨hp, -, hlast, hfront⟩
    refine ⟨by simp, by rwa [List.getLast?_cons_cons], ?_⟩
    rw [List.dropLast_cons_cons, List.forall_mem_cons]
    exact ⟨hp, hfront⟩

/-- No part holds the delimiter. -/
theorem not_occursAt (h : IsParting d parts) (hd : d ≠ []) (hp : p ∈ parts) (i : Nat) :
    ¬ OccursAt d p i := by
  rw [← List.dropLast_concat_getLast h.ne_nil, List.mem_append, List.mem_singleton] at hp
  rcases hp with hp | rfl
  · rintro ⟨front, back, rfl, rfl⟩
    have hlength : 0 < d.length := List.length_pos_iff.2 hd
    refine h.front _ hp front.length ?_ ⟨front, back ++ d, by simp, rfl⟩
    simp only [List.length_append]
    omega
  · exact h.last _ (List.getLast?_eq_some_getLast h.ne_nil) i

end IsParting

/-! ### Splitting -/

section Delimiter

variable (hd : d ≠ [])

theorem splitAt_of_none (h : cut? d s = none) : splitAt d hd s = [s] := by
  rw [splitAt]
  split
  · rfl
  · next hcut => simp [h] at hcut

theorem splitAt_of_some {before after : Text} (h : cut? d s = some (before, after)) :
    splitAt d hd s = before :: splitAt d hd after := by
  rw [splitAt]
  split
  · next hcut => simp [h] at hcut
  · next hcut =>
    obtain ⟨rfl, rfl⟩ := Prod.mk.inj (Option.some.inj (h.symm.trans hcut))
    rfl

theorem exists_splitAt_eq_cons (s : Text) : ∃ p parts, splitAt d hd s = p :: parts := by
  cases hcut : cut? d s with
  | none => exact ⟨s, [], splitAt_of_none hd hcut⟩
  | some cut => exact ⟨cut.1, _, splitAt_of_some hd hcut⟩

/-- Joining undoes splitting. -/
theorem join_splitAt (s : Text) : join (splitAt d hd s) d = s := by
  fun_induction splitAt d hd s with
  | case1 s hcut => exact List.intercalate_singleton
  | case2 s before after hcut ih =>
    obtain ⟨p, parts, hparts⟩ := exists_splitAt_eq_cons hd after
    rw [hparts, join] at ih
    rw [hparts, join, List.intercalate_cons_cons, ih, ← eq_of_cut? hcut]

/-- The parts of a text are cut at the first occurrences of the delimiter. -/
theorem isParting_splitAt (s : Text) : IsParting d (splitAt d hd s) := by
  fun_induction splitAt d hd s with
  | case1 s hcut => exact IsParting.singleton_iff.2 (cut?_eq_none_iff.1 hcut)
  | case2 s before after hcut ih =>
    obtain ⟨p, parts, hparts⟩ := exists_splitAt_eq_cons hd after
    obtain ⟨rfl, hfirst⟩ := cut?_eq_some_iff.1 hcut
    rw [hparts] at ih ⊢
    refine IsParting.cons_iff.2 ⟨fun i hi hoccurs => hfirst i hi ?_, ih⟩
    exact (occursAt_append_iff (by rw [List.length_append]; omega) after).2 hoccurs

/-- A parting comes back when it is joined and split. -/
theorem splitAt_join (h : IsParting d parts) : splitAt d hd (join parts d) = parts := by
  induction parts with
  | nil => exact absurd rfl h.ne_nil
  | cons p parts ih =>
    cases parts with
    | nil =>
      rw [join, List.intercalate_singleton]
      exact splitAt_of_none hd (cut?_eq_none_iff.2 (IsParting.singleton_iff.1 h))
    | cons q parts =>
      obtain ⟨hfirst, hrest⟩ := IsParting.cons_iff.1 h
      rw [join, List.intercalate_cons_cons]
      have hcut : cut? d (p ++ d ++ d.intercalate (q :: parts)) =
          some (p, d.intercalate (q :: parts)) := by
        refine cut?_eq_some_iff.2 ⟨rfl, fun i hi hoccurs => hfirst i hi ?_⟩
        exact (occursAt_append_iff (by rw [List.length_append]; omega) _).1 hoccurs
      rw [splitAt_of_some hd hcut]
      exact congrArg (p :: ·) (ih hrest)

end Delimiter

theorem split_of_cut?_eq_none (hd : d ≠ []) (h : cut? d s = none) : s.split d = [s] := by
  rw [split, dif_neg hd, splitAt_of_none hd h]

theorem split_of_cut?_eq_some (hd : d ≠ []) {before after : Text} (h : cut? d s = some (before, after)) :
    s.split d = before :: after.split d := by
  rw [split, split, dif_neg hd, dif_neg hd, splitAt_of_some hd h]

/-- A text is split into the parting that it is joined from. -/
theorem split_eq_iff (hd : d ≠ []) : s.split d = parts ↔ join parts d = s ∧ IsParting d parts := by
  rw [split, dif_neg hd]
  constructor
  · rintro rfl
    exact ⟨join_splitAt hd s, isParting_splitAt hd s⟩
  · rintro ⟨rfl, h⟩
    exact splitAt_join hd h

/-! ### Delimiters of one character -/

section Character

variable {c : Char}

/-- A delimiter of one character does not reach from a part into the next delimiter. -/
theorem isParting_character_iff : IsParting [c] parts ↔ parts ≠ [] ∧ ∀ p ∈ parts, c ∉ p := by
  constructor
  · refine fun h => ⟨h.ne_nil, fun p hp hmem => ?_⟩
    obtain ⟨front, back, rfl⟩ := List.append_of_mem hmem
    exact h.not_occursAt (by simp) hp front.length ⟨front, back, by simp, rfl⟩
  · rintro ⟨hne, hparts⟩
    refine ⟨hne, fun p hp i hoccurs => ?_, fun p hp i hi hoccurs => ?_⟩
    · exact hparts p (List.mem_of_getLast? hp) hoccurs.mem
    · exact hparts p ((List.dropLast_sublist parts).subset hp) ((occursAt_append_iff hi [c]).1 hoccurs).mem

theorem notMem_of_mem_split (h : p ∈ s.split [c]) : c ∉ p := by
  obtain ⟨-, hparting⟩ := (split_eq_iff (List.cons_ne_nil c [])).1 (rfl : s.split [c] = s.split [c])
  exact (isParting_character_iff.1 hparting).2 p h

theorem split_of_notMem (h : c ∉ s) : s.split [c] = [s] :=
  split_of_cut?_eq_none (List.cons_ne_nil c []) (cut?_singleton_of_notMem h)

theorem join_append {parts' : List Text} (h : parts ≠ []) (h' : parts' ≠ []) (d : Text) :
    join (parts ++ parts') d = join parts d ++ d ++ join parts' d := by
  induction parts with
  | nil => exact absurd rfl h
  | cons p parts ih =>
    cases parts with
    | nil => simp only [join, List.singleton_append, List.intercalate_cons_of_ne_nil h', List.intercalate_singleton]
    | cons q parts =>
      have htail : d.intercalate (q :: parts ++ parts') = d.intercalate (q :: parts) ++ d ++ d.intercalate parts' :=
        ih (List.cons_ne_nil q parts)
      rw [List.cons_append] at htail
      simp only [join, List.cons_append, List.intercalate_cons_cons, htail, List.append_assoc]

/-- A text is split at a character on either side of one of its places. -/
theorem split_append_cons (c : Char) (s t : Text) :
    Text.split (s ++ c :: t) [c] = s.split [c] ++ t.split [c] := by
  have hc : [c] ≠ [] := List.cons_ne_nil c []
  obtain ⟨hs, hfront⟩ := (split_eq_iff hc).1 (rfl : s.split [c] = s.split [c])
  obtain ⟨ht, hbehind⟩ := (split_eq_iff hc).1 (rfl : t.split [c] = t.split [c])
  refine (split_eq_iff hc).2 ⟨?_, isParting_character_iff.2 ⟨List.append_ne_nil_of_left_ne_nil hfront.ne_nil _, ?_⟩⟩
  · rw [join_append hfront.ne_nil hbehind.ne_nil, hs, ht, List.append_assoc, List.singleton_append]
  · intro p hp
    rcases List.mem_append.1 hp with hp | hp <;> exact notMem_of_mem_split hp

end Character

/-! ### Splitting and joining -/

theorem split_nil (s : Text) : s.split [] = s.map fun c => [c] := by
  rw [split, dif_pos rfl]

/-- One-character texts are joined without a delimiter. -/
theorem join_map_singleton (s : Text) : join (s.map fun c => [c]) [] = s := by
  induction s with
  | nil => rfl
  | cons c s ih =>
    cases s with
    | nil => rfl
    | cons c' s =>
      rw [join, List.map_cons] at ih
      rw [join, List.map_cons, List.map_cons, List.intercalate_cons_cons, ih]
      rfl

/-- **Splitting and joining are inverse to each other on partings.** A text is split into the only parting that
it is joined from. So joining undoes splitting, no part holds the delimiter, and a list of parts comes back
exactly if it is a parting. The empty delimiter splits a text into its characters, which are joined again. -/
theorem split_join_inverse (hd : d ≠ []) :
    (∀ s parts, s.split d = parts ↔ join parts d = s ∧ IsParting d parts) ∧
    (∀ s, join (s.split d) d = s ∧ ∀ p ∈ s.split d, ∀ i, ¬ OccursAt d p i) ∧
    (∀ parts, (join parts d).split d = parts ↔ IsParting d parts) ∧
    ∀ s : Text, s.split [] = s.map (fun c => [c]) ∧ join (s.split []) [] = s := by
  refine ⟨fun s parts => split_eq_iff hd, fun s => ?_, fun parts => ?_, fun s => ?_⟩
  · obtain ⟨hjoin, hparting⟩ := (split_eq_iff hd).1 (rfl : s.split d = s.split d)
    exact ⟨hjoin, fun p hp => hparting.not_occursAt hd hp⟩
  · rw [split_eq_iff hd]
    exact and_iff_right rfl
  · rw [split_nil]
    exact ⟨rfl, join_map_singleton s⟩

/-- Overlapping occurrences: the parts of `aaa` around `aa` come back, and those in the other order do not,
because the first occurrence then reaches from the first part into the delimiter. -/
theorem split_join_inverse_overlapping :
    ['a', 'a'] ≠ [] ∧ Text.split ['a', 'a', 'a'] ['a', 'a'] = [[], ['a']] ∧
      join [[], ['a']] ['a', 'a'] = ['a', 'a', 'a'] ∧ IsParting ['a', 'a'] [[], ['a']] ∧
      ¬ IsParting ['a', 'a'] [['a'], []] ∧ join (Text.split ['x', 'y'] []) [] = ['x', 'y'] := by
  have hd : ['a', 'a'] ≠ [] := by decide
  have hsplit : Text.split ['a', 'a', 'a'] ['a', 'a'] = [[], ['a']] := by
    cbv
  obtain ⟨hiff, -, hback, hempty⟩ := split_join_inverse hd
  obtain ⟨hjoin, hparting⟩ := (hiff _ _).1 hsplit
  refine ⟨hd, hsplit, hjoin, hparting, fun h => ?_, (hempty _).2⟩
  have hother := (hback [['a'], []]).2 h
  rw [show join [['a'], []] ['a', 'a'] = ['a', 'a', 'a'] from rfl, hsplit] at hother
  exact absurd hother (by decide)

end Primitives.Text
