import Primitives.Library.TextOperations

/-!
# Slices

A signed bound stands for a position of the text: a negative one counts from the end, and whatever lies outside is
moved to the nearer end. So a slice is the substring between the positions of its bounds, and everything about slices is
told by these positions: how long a slice is, which characters it has, how slices of one text are put together, and
what a slice is when the text is read backwards.

## Main definitions

* `Text.position`: the position that a signed bound stands for.

## Main results

* `Text.part_append_part`, `Text.reverse_part`, `Text.getElem?_part`: the parts of a text.
* `Text.slice_eq_substring`: slices are substrings.
* `Text.slice_laws`: length, characters, concatenation and reversal of slices.
-/

namespace Primitives.Text

variable {s : Text} {a b : Int} {i j k : Nat}

/-! ### Positions -/

/-- The position that a signed bound stands for: the bound itself, or its distance from the end if it is negative, and
then the nearest position from zero to the length. -/
def position (s : Text) (i : Int) : Int :=
  max 0 (min (if i < 0 then i + s.length else i) s.length)

theorem natCast_clamp (s : Text) (i : Int) : (s.clamp i : Int) = max 0 (min i s.length) := by
  rw [clamp]
  omega

theorem natCast_resolve (s : Text) (i : Int) : (s.resolve i : Int) = s.position i :=
  s.natCast_clamp _

/-- A position is one already. -/
theorem clamp_position (s : Text) (i : Int) : s.clamp (s.position i) = s.resolve i := by
  rw [← natCast_resolve, clamp, Int.toNat_natCast, Nat.min_eq_left (s.resolve_le_length i)]

theorem resolve_length (s : Text) : s.resolve s.length = s.length := by
  have hposition := s.natCast_resolve s.length
  rw [position] at hposition
  omega

theorem resolve_zero (s : Text) : s.resolve 0 = 0 := by
  have hposition := s.natCast_resolve 0
  rw [position] at hposition
  omega

/-! ### Parts -/

theorem part_eq_take (s : Text) (i j : Nat) : s.part i j = (s.drop i).take (j - i) :=
  List.drop_take

theorem part_zero_length (s : Text) : s.part 0 s.length = s := by
  rw [part, List.drop_zero, List.take_length]

/-- Two parts of which the second one begins where the first one ends. -/
theorem part_append_part (s : Text) (hij : i ≤ j) (hjk : j ≤ k) : s.part i j ++ s.part j k = s.part i k := by
  have hsecond : s.part j k = ((s.drop i).drop (j - i)).take (k - j) := by
    rw [part_eq_take, List.drop_drop, Nat.add_sub_cancel' hij]
  rw [hsecond, part_eq_take, part_eq_take, ← List.take_add]
  congr 1
  omega

/-- A character of a part. -/
theorem getElem?_part (s : Text) (h : i + k < j) : (s.part i j)[k]? = s[i + k]? := by
  rw [part, List.getElem?_drop, List.getElem?_take_of_lt h]

/-- A part read backwards is one of the text read backwards, between the same positions seen from the other end. -/
theorem reverse_part (i : Nat) (hj : j ≤ s.length) :
    (s.part i j).reverse = part s.reverse (s.length - j) (s.length - i) := by
  rw [part_eq_take s.reverse, part, List.reverse_drop, List.reverse_take, List.length_take]
  congr 1
  omega

/-! ### Slices -/

/-- A slice is the substring between the positions of its bounds. -/
theorem slice_eq_substring (s : Text) (a b : Int) :
    s.slice a (some b) = s.substring (s.position a) (some (s.position b)) := by
  rw [slice, substring, Option.getD_some, Option.getD_some, clamp_position, clamp_position]

theorem length_slice (s : Text) (a b : Int) :
    ((s.slice a (some b)).length : Int) = max 0 (s.position b - s.position a) := by
  have hstop := s.resolve_le_length b
  rw [slice, Option.getD_some, length_part, ← natCast_resolve, ← natCast_resolve]
  omega

theorem slice_append_slice (s : Text) {c : Int} (hab : s.position a ≤ s.position b)
    (hbc : s.position b ≤ s.position c) :
    s.slice a (some b) ++ s.slice b (some c) = s.slice a (some c) := by
  rw [← natCast_resolve, ← natCast_resolve, Int.ofNat_le] at hab hbc
  exact s.part_append_part hab hbc

/-- A text is put together from the slices in front of and behind a position. -/
theorem slice_zero_append (s : Text) (a : Int) : s.slice 0 (some a) ++ s.slice a none = s := by
  rw [slice, slice, Option.getD_some, Option.getD_none, resolve_zero, resolve_length,
    part_append_part s (Nat.zero_le _) (s.resolve_le_length a), part_zero_length]

theorem reverse_slice (s : Text) (a b : Int) :
    (s.slice a (some b)).reverse =
      substring s.reverse (s.length - s.position b) (some (s.length - s.position a)) := by
  have hstart := s.resolve_le_length a
  have hstop := s.resolve_le_length b
  have hclamp : ∀ i ≤ s.length, clamp s.reverse (s.length - i : Int) = s.length - i := fun i hi => by
    rw [clamp, List.length_reverse]
    omega
  rw [slice, substring, Option.getD_some, Option.getD_some, ← natCast_resolve, ← natCast_resolve, hclamp _ hstart,
    hclamp _ hstop, reverse_part _ hstop]

/-! ### Characters -/

theorem charAt?_natCast (s : Text) (i : Nat) : s.charAt? i = s[i]? := by
  rw [charAt?, if_neg (Int.not_lt.2 (Int.natCast_nonneg i)), Int.toNat_natCast]

variable [Surroundings]

/-- A character within a text needs no settings. -/
theorem characterAt_of_some {i : Int} {c : Char} (h : s.charAt? i = some c) :
    characterAt s i = pure (.text [c]) := by
  rw [characterAt, h]

/-- The characters of a slice are those of the text behind the position of its start. -/
theorem exists_characterAt_slice (s : Text) {k : Int} (hk : 0 ≤ k)
    (hlength : k < max 0 (s.position b - s.position a)) :
    ∃ c, characterAt (s.slice a (some b)) k = pure (.text [c]) ∧
      characterAt s (s.position a + k) = pure (.text [c]) := by
  obtain ⟨n, rfl⟩ := Int.eq_ofNat_of_zero_le hk
  rw [← natCast_resolve, ← natCast_resolve] at hlength
  have hstop := s.resolve_le_length b
  have hn : s.resolve a + n < s.resolve b := by omega
  obtain ⟨c, hc⟩ : ∃ c, s[s.resolve a + n]? = some c := ⟨_, List.getElem?_eq_getElem (by omega)⟩
  refine ⟨c, characterAt_of_some ?_, characterAt_of_some ?_⟩
  · rw [slice, charAt?_natCast, Option.getD_some, getElem?_part s hn, hc]
  · rw [← natCast_resolve, ← Int.natCast_add, charAt?_natCast, hc]

/-- **Slices are told by the positions of their bounds.** For any text and any signed bounds, the slice is the substring
between their positions, as long as they are apart, and its characters are those of the text from the first position
on. Without an end it reaches to the end of the text. A text is the slice in front of a bound with the one from there
on, slices between positions in order are put together to one slice, and a slice read backwards is the substring of the
text read backwards between the same positions seen from the other end. -/
theorem slice_laws (s : Text) (a b : Int) :
    s.slice a (some b) = s.substring (s.position a) (some (s.position b)) ∧
    ((s.slice a (some b)).length : Int) = max 0 (s.position b - s.position a) ∧
    (∀ k, 0 ≤ k → k < max 0 (s.position b - s.position a) →
      ∃ c, characterAt (s.slice a (some b)) k = pure (.text [c]) ∧
        characterAt s (s.position a + k) = pure (.text [c])) ∧
    s.slice a none = s.slice a (some s.length) ∧
    s.slice 0 (some a) ++ s.slice a none = s ∧
    (∀ c, s.position a ≤ s.position b → s.position b ≤ s.position c →
      s.slice a (some b) ++ s.slice b (some c) = s.slice a (some c)) ∧
    (s.slice a (some b)).reverse =
      substring s.reverse (s.length - s.position b) (some (s.length - s.position a)) :=
  ⟨s.slice_eq_substring a b, s.length_slice a b, fun _ => s.exists_characterAt_slice, rfl, s.slice_zero_append a,
    fun _ => s.slice_append_slice, s.reverse_slice a b⟩

example : slice ['a', 'b', 'c', 'd', 'e'] (-4) (some (-1)) = ['b', 'c', 'd'] := by
  decide

/-- Bounds from the end, and one far beyond it: the slice of `abcde` from the fourth to the first character from the end
has three characters, and the rest from there on follows. -/
theorem slice_laws_fromEnd :
    position ['a', 'b', 'c', 'd', 'e'] (-4) = 1 ∧ position ['a', 'b', 'c', 'd', 'e'] (-1) = 4 ∧
    (∃ c, characterAt (slice ['a', 'b', 'c', 'd', 'e'] (-4) (some (-1))) 2 = pure (.text [c]) ∧
      characterAt ['a', 'b', 'c', 'd', 'e'] (1 + 2) = pure (.text [c])) ∧
    slice ['a', 'b', 'c', 'd', 'e'] (-4) (some (-1)) ++ slice ['a', 'b', 'c', 'd', 'e'] (-1) (some (10 ^ 30)) =
      slice ['a', 'b', 'c', 'd', 'e'] (-4) (some (10 ^ 30)) := by
  obtain ⟨-, -, hcharacters, -, -, happend, -⟩ := slice_laws ['a', 'b', 'c', 'd', 'e'] (-4) (-1)
  exact ⟨by decide, by decide, hcharacters 2 (by decide) (by decide), happend (10 ^ 30) (by decide) (by decide)⟩

end Primitives.Text
