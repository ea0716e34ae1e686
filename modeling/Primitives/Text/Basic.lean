/-!
# Texts and their slices

A *text* is a finite sequence of characters, one position for each code point. This file fixes the
type and the operations that pick out a part of a text by position. Positions given by a program
are integers of any size: a slice counts negative positions from the end, a substring does not,
and both clamp into the text.

## Main definitions

* `Text`: texts, with literals read as texts.
* `Text.charAt?`: the character at a position.
* `Text.substring`, `Text.slice`: the part between two absolute or two signed positions.
-/

namespace Primitives

/-- A text is the sequence of its characters. Characters are the scalar values of Unicode, so that texts
with lone surrogates are left out. -/
abbrev Text := List Char

instance : Coe String Text := ⟨String.toList⟩

namespace Text

/-! ### Positions -/

/-- A position clamped into the text: the nearest of `0, …, length s`. -/
def clamp (s : Text) (i : Int) : Nat :=
  min i.toNat s.length

/-- A signed position: a negative one counts from the end, and the result is clamped. -/
def resolve (s : Text) (i : Int) : Nat :=
  s.clamp (if i < 0 then i + s.length else i)

/-- The character at a position, or none when the position lies outside the text. -/
def charAt? (s : Text) (i : Int) : Option Char :=
  if i < 0 then none else s[i.toNat]?

/-! ### Parts -/

/-- The characters at the positions `i, …, j - 1`; empty when `j ≤ i`. -/
def part (s : Text) (i j : Nat) : Text :=
  (s.take j).drop i

/-- The part between two absolute positions; the end defaults to the length. -/
def substring (s : Text) (start : Int) (stop : Option Int) : Text :=
  s.part (s.clamp start) (s.clamp (stop.getD s.length))

/-- The part between two signed positions; the end defaults to the length. -/
def slice (s : Text) (start : Int) (stop : Option Int) : Text :=
  s.part (s.resolve start) (s.resolve (stop.getD s.length))

@[simp] theorem length_part (s : Text) (i j : Nat) :
    (s.part i j).length = min j s.length - i := by
  simp [part]

theorem clamp_le_length (s : Text) (i : Int) : s.clamp i ≤ s.length :=
  Nat.min_le_right ..

theorem resolve_le_length (s : Text) (i : Int) : s.resolve i ≤ s.length :=
  s.clamp_le_length _

end Text

end Primitives
