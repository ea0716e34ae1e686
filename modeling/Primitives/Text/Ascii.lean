import Primitives.Text.Basic

/-!
# Letters, digits and blanks

Case mapping and classification know the 7-bit letters and digits only: every other character is
neither letter nor digit and has no other case. A *blank* is one of the six white space characters
of the same range, and trimming removes blanks from the ends of a text.

## Main definitions

* `Text.isBlank`, `Text.isDigit`, `Text.isLetter`: the character classes.
* `Text.consistsOf`: a text that is not empty and lies in one class.
* `Text.upper`, `Text.lower`, `Text.capitalize`: case mapping.
* `Text.trimLeft`, `Text.trimRight`, `Text.trim`: removal of blanks.
-/

namespace Primitives.Text

/-! ### Classes -/

/-- Space, tab, newline, carriage return, form feed or vertical tab. -/
def isBlank (c : Char) : Bool :=
  c == ' ' || c == '\t' || c == '\n' || c == '\r' || c == '\x0c' || c == '\x0b'

/-- One of the ten decimal digits. -/
def isDigit (c : Char) : Bool :=
  '0' ≤ c && c ≤ '9'

def isLowerLetter (c : Char) : Bool :=
  'a' ≤ c && c ≤ 'z'

def isUpperLetter (c : Char) : Bool :=
  'A' ≤ c && c ≤ 'Z'

def isLetter (c : Char) : Bool :=
  isLowerLetter c || isUpperLetter c

/-- A text lies in a class when it is not empty and all its characters do. -/
def consistsOf (p : Char → Bool) (s : Text) : Bool :=
  !s.isEmpty && s.all p

/-! ### Case -/

def upperChar (c : Char) : Char :=
  if isLowerLetter c then Char.ofNat (c.toNat - 32) else c

def lowerChar (c : Char) : Char :=
  if isUpperLetter c then Char.ofNat (c.toNat + 32) else c

def upper (s : Text) : Text :=
  s.map upperChar

def lower (s : Text) : Text :=
  s.map lowerChar

/-- The text with its first character in upper case. -/
def capitalize : Text → Text
  | [] => []
  | c :: s => upperChar c :: s

/-! ### Trimming -/

def trimLeft (s : Text) : Text :=
  s.dropWhile isBlank

def trimRight (s : Text) : Text :=
  (s.reverse.dropWhile isBlank).reverse

def trim (s : Text) : Text :=
  trimRight (trimLeft s)

end Primitives.Text
