import Primitives.Number.Power
import Primitives.Surroundings

/-!
# Repetition and padding

A padded text is filled up to a width by copies of the first character of a filling text. A text
that is already as wide, or an empty filling, leaves the text as it is. Programs may ask for texts that
no host can hold; those requests are told apart before anything is written.

## Main definitions

* `Text.repeated`: a text written several times.
* `Text.padLeft`, `Text.padRight`: padding in front and behind.
* `Text.checkRepeat`, `Text.checkPad`: whether the host can hold the result.
-/

namespace Primitives

/-- Why the host does not write a text several times. -/
inductive RepeatFault where
  | countTooLarge
  | lengthTooLarge
  | outOfMemory
deriving DecidableEq

/-- The wording of a repetition fault. -/
def RepeatFault.message : RepeatFault → Text
  | countTooLarge => "cannot fit 'int' into an index-sized integer"
  | lengthTooLarge => "repeated string is too long"
  | outOfMemory => []

namespace Text

/-- The text written `n` times, empty for `n ≤ 0`. -/
def repeated (s : Text) (n : Int) : Text :=
  (List.replicate n.toNat s).flatten

/-- The characters that fill a text up to a width. -/
def filling (s : Text) (width : Int) (fill : Text) : Text :=
  match fill with
  | [] => []
  | c :: _ => List.replicate (width - s.length).toNat c

def padLeft (s : Text) (width : Int) (fill : Text) : Text :=
  s.filling width fill ++ s

def padRight (s : Text) (width : Int) (fill : Text) : Text :=
  s ++ s.filling width fill

/-! ### Limits of the host -/

/-- The number of positions in a text is below this bound, which a signed word of 64 bits sets. -/
def indexLimit : Nat := 2 ^ 63

variable [Surroundings]

/-- Checks that the host can write a text of a given length several times. -/
def checkCount (length : Nat) (n : Int) : Except RepeatFault Unit :=
  if indexLimit ≤ n.toNat then .error .countTooLarge
  else if 1 < length ∧ indexLimit ≤ length * n.toNat then .error .lengthTooLarge
  else if Surroundings.memoryLimit ≤ length * n.toNat then .error .outOfMemory
  else .ok ()

/-- Checks that the host can hold a text written `n` times. -/
def checkRepeat (s : Text) (n : Int) : Except RepeatFault Unit :=
  checkCount s.length n

/-- Checks that the host can hold the filling of a padded text. -/
def checkPad (s : Text) (width : Int) (fill : Text) : Except RepeatFault Unit :=
  if fill.isEmpty then .ok () else checkCount 1 (width - s.length)

end Text

end Primitives
