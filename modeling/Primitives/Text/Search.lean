import Primitives.Text.Basic

/-!
# Occurrences of one text in another

A text `t` occurs in `s` at `p` when `s` with `p` characters dropped begins with `t`; the empty text
occurs at every position, the end included. The searches below find the first and the last
occurrence, and `cut?` parts a text around the first one.

## Main definitions

* `Text.first?`, `Text.last?`: the least and the greatest position of an occurrence.
* `Text.indexOf?`: the least position from a given one on.
* `Text.cut?`: the texts before and after the first occurrence.

## Main results

* `Text.eq_of_cut?`: the two texts around an occurrence.
-/

namespace Primitives.Text

/-- The least position at which `t` occurs. -/
def first? (t : Text) : Text → Option Nat
  | [] => if t.isEmpty then some 0 else none
  | c :: s => if t.isPrefixOf (c :: s) then some 0 else (first? t s).map (· + 1)

/-- The greatest position at which `t` occurs. -/
def last? (t : Text) : Text → Option Nat
  | [] => if t.isEmpty then some 0 else none
  | c :: s =>
    match last? t s with
    | some p => some (p + 1)
    | none => if t.isPrefixOf (c :: s) then some 0 else none

/-- The least position not below `start` at which `t` occurs in `s`. -/
def indexOf? (s t : Text) (start : Int) : Option Nat :=
  if start.toNat ≤ s.length then
    (first? t (s.drop start.toNat)).map (· + start.toNat)
  else none

/-- Whether `t` occurs in `s`. -/
def includes (s t : Text) : Bool :=
  (first? t s).isSome

/-- Whether `s` begins with `t`. -/
def startsWith (s t : Text) : Bool :=
  t.isPrefixOf s

/-- Whether `s` ends with `t`. -/
def endsWith (s t : Text) : Bool :=
  t.isSuffixOf s

/-! ### Parting a text around an occurrence -/

/-- The texts before and after the first occurrence of `t`. -/
def cut? (t : Text) : Text → Option (Text × Text)
  | [] => if t.isEmpty then some ([], []) else none
  | c :: s =>
    if t.isPrefixOf (c :: s) then some ([], (c :: s).drop t.length)
    else (cut? t s).map fun (before, after) => (c :: before, after)

theorem eq_of_cut? {t s before after : Text} (h : cut? t s = some (before, after)) :
    s = before ++ t ++ after := by
  induction s generalizing before with
  | nil =>
    cases t <;> simp_all [cut?]
  | cons c s ih =>
    rw [cut?] at h
    split at h
    · next hp =>
      obtain ⟨rfl, rfl⟩ : [] = before ∧ (c :: s).drop t.length = after := by simpa using h
      simpa using List.prefix_iff_eq_append.1 (List.isPrefixOf_iff_prefix.1 hp) |>.symm
    · obtain ⟨⟨b, a⟩, hc, hb⟩ := Option.map_eq_some_iff.1 h
      obtain ⟨rfl, rfl⟩ : c :: b = before ∧ a = after := by simpa using hb
      simp [ih hc]

theorem length_lt_of_cut? {t s before after : Text} (ht : t ≠ [])
    (h : cut? t s = some (before, after)) : after.length < s.length := by
  have hl := congrArg List.length (eq_of_cut? h)
  have ht : 0 < t.length := List.length_pos_iff.2 ht
  simp only [List.length_append] at hl
  omega

end Primitives.Text
