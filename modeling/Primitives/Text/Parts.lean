import Primitives.Text.Search

/-!
# Splitting, joining and replacing

A text is split at the non-overlapping occurrences of a delimiter, taken from the left, and joined
with a delimiter between neighbouring parts. Replacement substitutes at the same occurrences. The
empty delimiter splits between all characters, and replacing the empty text changes nothing.

## Main definitions

* `Text.split`, `Text.join`: parts of a text and back.
* `Text.replace`, `Text.replaceFirst`: substitution at all occurrences or at the first.
-/

namespace Primitives.Text

/-- The parts between the occurrences of a delimiter that is not empty. -/
def splitAt (d : Text) (hd : d ≠ []) (s : Text) : List Text :=
  match _h : cut? d s with
  | none => [s]
  | some (before, after) => before :: splitAt d hd after
termination_by s.length
decreasing_by exact length_lt_of_cut? hd (by assumption)

/-- The parts of a text between the occurrences of a delimiter; the empty delimiter gives the
one-character texts. -/
def split (s d : Text) : List Text :=
  if hd : d = [] then s.map fun c => [c] else splitAt d hd s

/-- The parts in order with the delimiter between neighbours. -/
def join (parts : List Text) (d : Text) : Text :=
  d.intercalate parts

/-- Substitutes `b` at each occurrence of a text `a` that is not empty. -/
def replaceAll (a b : Text) (ha : a ≠ []) (s : Text) : Text :=
  match _h : cut? a s with
  | none => s
  | some (before, after) => before ++ b ++ replaceAll a b ha after
termination_by s.length
decreasing_by exact length_lt_of_cut? ha (by assumption)

/-- Substitutes `b` at every non-overlapping occurrence of `a`, from the left. -/
def replace (s a b : Text) : Text :=
  if ha : a = [] then s else replaceAll a b ha s

/-- Substitutes `b` at the first occurrence of `a`. -/
def replaceFirst (s a b : Text) : Text :=
  if a = [] then s
  else
    match cut? a s with
    | none => s
    | some (before, after) => before ++ b ++ after

end Primitives.Text
