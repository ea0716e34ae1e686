import Primitives.Number.Power
import Primitives.Text.Ascii

/-!
# Numerals

Integers are written in a base with the digits `0, …, 9, a, …, f` and read from decimal digits.
Decimal numerals are limited to 4300 digits in both directions, leading zeros included; numerals of
the other bases have no limit.

## Main definitions

* `Numeral.ofNat`, `Numeral.ofInt`: the digits of a number, with a minus sign in front.
* `Numeral.value`: the number that decimal digits stand for.
* `Numeral.decimal`, `Numeral.read`: decimal numerals within the limit.
-/

namespace Primitives

/-- A decimal numeral beyond the limit, met while writing or while reading one of `count` digits. -/
inductive NumeralFault where
  | writing
  | reading (count : Nat)
deriving DecidableEq

namespace Numeral

/-- The greatest number of digits of a decimal numeral. -/
def digitLimit : Nat := 4300

/-- The digits of a number in a base up to 16, the most significant one first. -/
def ofNat (base n : Nat) : Text :=
  Nat.toDigits base n

/-- The digits of an integer behind its minus sign. -/
def ofInt (base : Nat) (n : Int) : Text :=
  if n < 0 then '-' :: ofNat base n.natAbs else ofNat base n.natAbs

/-- The number that a decimal digit stands for. -/
def digitValue (c : Char) : Nat :=
  c.toNat - '0'.toNat

/-- The number that decimal digits stand for; no digits stand for zero. -/
def value (digits : Text) : Nat :=
  digits.foldl (fun n c => 10 * n + digitValue c) 0

/-- Writes an integer in decimal. -/
def decimal (n : Int) : Except NumeralFault Text :=
  if n.natAbs < 10 ^ digitLimit then .ok (ofInt 10 n) else .error .writing

/-- Reads decimal digits. -/
def read (digits : Text) : Except NumeralFault Nat :=
  if digits.length ≤ digitLimit then .ok (value digits) else .error (.reading digits.length)

end Numeral

/-- The wording of a numeral fault. -/
def NumeralFault.message (fault : NumeralFault) : Text :=
  let limit : Text := "Exceeds the limit (4300 digits) for integer string conversion"
  let advice : Text := "; use sys.set_int_max_str_digits() to increase the limit"
  match fault with
  | .writing => limit ++ advice
  | .reading count => limit ++ ": value has " ++ Numeral.ofNat 10 count ++ " digits" ++ advice

end Primitives
