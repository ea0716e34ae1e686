import Primitives.Number.Decimal

/-!
# Reading numbers from text

An integer text is an optional sign and decimal digits between blanks, with a value of 64 bits. A
double text is a decimal literal, an infinity or the value that is not a number between blanks; a
literal too large for a double, or one that is not zero and too small, is malformed as well.

The words `inf`, `infinity` and `nan` are recognized in any letter case, and the recognition of
their letter `i` also takes the dotless and the dotted one. A word spelled with one of those has
no value, which is a fault and not a malformed text.

## Main definitions

* `parseInt`: the value of an integer text.
* `DoubleLiteral.ofText?`: the form of a double text.
* `parseDouble`: the value of a double text.
-/

namespace Primitives

open Text

/-! ### Integers -/

/-- The least and the greatest integer of 64 bits. -/
def int64Min : Int := -(2 ^ 63)

def int64Max : Int := 2 ^ 63 - 1

/-- The sign in front of a text, true for minus, and the rest. -/
def takeSign : Text → Bool × Text
  | '-' :: s => (true, s)
  | '+' :: s => (false, s)
  | s => (false, s)

/-- The value of an integer text, none when it is malformed or outside 64 bits. -/
def parseInt (s : Text) : Option Int :=
  let (negative, digits) := takeSign (trim s)
  if consistsOf isDigit digits then
    match Numeral.read digits with
    | .error _ => none
    | .ok n =>
      let v : Int := if negative then -n else n
      if int64Min ≤ v ∧ v ≤ int64Max then some v else none
  else none

/-! ### Doubles -/

/-- A double text without its blanks: a decimal form with a sign, or a word with a sign. -/
inductive DoubleLiteral where
  | decimal (negative : Bool) (form : Decimal)
  | infinity (negative : Bool)
  | nan
  | misspelled
deriving DecidableEq

namespace DoubleLiteral

/-- The forms of a letter that a word takes: both cases, and for `i` the dotless and dotted one. -/
def matchesLetter (letter c : Char) : Bool :=
  lowerChar c == letter || (letter == 'i' && (c == 'ı' || c == 'İ'))

/-- Whether a text spells a word of small letters, letter by letter. -/
def spells (word s : Text) : Bool :=
  word.length == s.length && (word.zip s).all fun (letter, c) => matchesLetter letter c

/-- The exponent behind the digits of a literal: none at all, or `e`, a sign and digits. -/
def exponent? : Text → Option Int
  | [] => some 0
  | c :: s =>
    let (negative, digits) := takeSign s
    if lowerChar c == 'e' && consistsOf isDigit digits then
      some (if negative then -(Numeral.value digits : Int) else Numeral.value digits)
    else none

/-- The form of a decimal literal without its sign: digits around an optional point, at least one of
them, and an optional exponent. -/
def form? (s : Text) : Option Decimal :=
  let whole := s.takeWhile isDigit
  let rest := s.dropWhile isDigit
  let (fraction, rest) :=
    match rest with
    | '.' :: rest => (rest.takeWhile isDigit, rest.dropWhile isDigit)
    | rest => ([], rest)
  if whole.isEmpty && fraction.isEmpty then none
  else (exponent? rest).map fun e => ⟨Numeral.value (whole ++ fraction), e - fraction.length⟩

/-- The literal that a text without blanks around it spells. -/
def ofText? (s : Text) : Option DoubleLiteral :=
  let (negative, body) := takeSign s
  let exact := body.all (·.toNat < 0x80)
  if spells "inf" body || spells "infinity" body then
    some (if exact then infinity negative else misspelled)
  else if spells "nan" body then some nan
  else (form? body).map (decimal negative)

end DoubleLiteral

/-- A word that is recognized as a double text and has no value. -/
structure MisspelledDouble where
  literal : Text
deriving DecidableEq

/-- The value of a decimal literal, none when it overflows, or when it vanishes without being
zero. -/
def decimalValue (negative : Bool) (form : Decimal) : Option Double :=
  let x := Double.ofDecimal negative form
  if x.isInfinite || (x.isZero && form.digits != 0) then none else some x

/-- The value of a double text, none when it is malformed or outside the range of doubles. -/
def parseDouble (s : Text) : Except MisspelledDouble (Option Double) :=
  match DoubleLiteral.ofText? (trim s) with
  | none => .ok none
  | some (.decimal negative form) => .ok (decimalValue negative form)
  | some (.infinity negative) => .ok (some (.infinite negative))
  | some .nan => .ok (some .nan)
  | some .misspelled => .error ⟨trim s⟩

end Primitives
