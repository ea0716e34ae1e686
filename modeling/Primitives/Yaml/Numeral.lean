import Primitives.Number.Basic
import Primitives.Number.Literal
import Primitives.Text.Parts
import Primitives.Yaml.Cursor
import Primitives.Yaml.Fault

/-!
# Numbers in documents

A number in a document may hold underscores, which do not count. An integer is written in one of four
bases behind a mark, or in numbers to the base sixty with colons between them, and so is a double. What
is tagged as a number without having the form of one is a fault.

## Main definitions

* `Yaml.intOfScalar`: the integer that a scalar stands for.
* `Yaml.doubleOfScalar`: the double that a scalar stands for.
-/

namespace Primitives.Yaml

open Text

/-- The scalar without its underscores and its sign, and whether the sign is a minus. -/
def signedBody (s : Text) : Except DocumentFault (Bool × Text) :=
  let s := s.filter (· != '_')
  if s.isEmpty then .error .emptyNumber else .ok (takeSign s)

/-! ### Integers -/

/-- The letter that marks a base behind a zero. -/
def baseLetter? : Nat → Option Char
  | 2 => some 'b'
  | 8 => some 'o'
  | 16 => some 'x'
  | _ => none

/-- The digits of a literal behind the mark of its base. -/
def behindBaseMark (base : Nat) : Text → Text
  | '0' :: c :: digits =>
    if some (lowerChar c) = baseLetter? base then digits else '0' :: c :: digits
  | digits => digits

/-- Whether a character is a digit of a base up to sixteen. -/
def isDigitOf (base : Nat) (c : Char) : Bool :=
  isHexDigit c && decide (hexValue c < base)

/-- The number that digits of a base stand for. -/
def valueOf (base : Nat) (digits : Text) : Except DocumentFault Nat :=
  if base = 10 then (Numeral.read digits).mapError .longInt
  else .ok (digits.foldl (fun n c => base * n + hexValue c) 0)

/-- The integer that a literal of a base stands for: digits behind an optional sign and an optional mark
of the base, between blanks. -/
def intOfLiteral (base : Nat) (literal : Text) : Except DocumentFault Int := do
  let (negative, body) := takeSign (trim literal)
  let digits := behindBaseMark base body
  if !consistsOf (isDigitOf base) digits then throw (.notInt literal base)
  let n ← valueOf base digits
  return if negative then -n else n

/-- The integer that a scalar without a sign stands for. -/
def intOfBody (s : Text) : Except DocumentFault Int :=
  match s with
  | [] => .error .emptyNumber
  | ['0'] => .ok 0
  | '0' :: 'b' :: digits => intOfLiteral 2 digits
  | '0' :: 'x' :: digits => intOfLiteral 16 digits
  | '0' :: _ => intOfLiteral 8 s
  | _ =>
    if s.contains ':' then do
      return ((← (s.split [':']).mapM (intOfLiteral 10))).foldl (fun n part => 60 * n + part) 0
    else intOfLiteral 10 s

/-- The integer that a scalar stands for. -/
def intOfScalar (s : Text) : Except DocumentFault Int := do
  let (negative, body) ← signedBody s
  let n ← intOfBody body
  return if negative then -n else n

/-! ### Doubles -/

/-- The double that a literal stands for: a decimal literal, an infinity or the word for no number,
between blanks. -/
def doubleOfLiteral (literal : Text) : Except DocumentFault Double :=
  match DoubleLiteral.ofText? (trim literal) with
  | some (.decimal negative form) => .ok (.ofDecimal negative form)
  | some (.infinity negative) => .ok (.infinite negative)
  | some .nan => .ok .nan
  | _ => .error (.notDouble literal)

/-- Adds numbers to the base sixty to a sum, the last one first, each times a weight. -/
def addSixtieths (weight : Nat) (sum : Double) : List Double → Except DocumentFault Double
  | [] => .ok sum
  | x :: parts =>
    match (Number.int weight).toDouble with
    | .ok w => addSixtieths (60 * weight) (sum.add (x.mul w)) parts
    | .error _ => .error .doubleOverflow

/-- The double that a scalar without a sign stands for. -/
def doubleOfBody (s : Text) : Except DocumentFault Double :=
  if s = ".inf".toList then .ok (.infinite false)
  else if s = ".nan".toList then .ok .nan
  else if s.contains ':' then do
    let parts ← (s.split [':']).mapM doubleOfLiteral
    addSixtieths 1 (.zero false) parts.reverse
  else doubleOfLiteral s

/-- The double that a scalar stands for. -/
def doubleOfScalar (s : Text) : Except DocumentFault Double := do
  let (negative, body) ← signedBody (lower s)
  let x ← doubleOfBody body
  return if negative then x.neg else x

end Primitives.Yaml
