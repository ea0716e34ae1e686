import Primitives.Datum
import Primitives.Number.Literal
import Primitives.Settings.Issue
import Primitives.Text.Search

/-!
# Conversions of data

A field of the settings is a text, an integer or a double, and takes data of some other kinds as well:
bytes for the text that they encode, truth values for zero and one, integral doubles for integers, and
texts that spell a number. What does not fit is an issue with a tag. How far this goes is up to the
surroundings of the primitives; the conversions here serve to run the primitives and to give examples.

## Main definitions

* `Field.text`, `Field.int`, `Field.double`: the conversions.
-/

namespace Primitives

namespace Field

open Text

/-! ### Issues -/

def notText : Issue := .unfit "string_type"

def notUnicode : Issue := .unfit "string_unicode"

def notInt : Issue := .unfit "int_type"

def notIntText : Issue := .unfit "int_parsing"

def longIntText : Issue := .unfit "int_parsing_size"

def notIntegral : Issue := .unfit "int_from_float"

def notFinite : Issue := .unfit "finite_number"

def notDouble : Issue := .unfit "float_type"

def notDoubleText : Issue := .unfit "float_parsing"

/-! ### Texts -/

def text : Datum → Except Issue Text
  | .text s => .ok s
  | .bytes bs => (Utf8.decode bs).mapError fun _ => notUnicode
  | _ => .error notText

/-! ### White space and underscores -/

/-- White space of any script. -/
def isWhiteSpace (c : Char) : Bool :=
  let n := c.toNat
  (0x09 ≤ n && n ≤ 0x0d) || n == 0x20 || n == 0x85 || n == 0xa0 || n == 0x1680
    || (0x2000 ≤ n && n ≤ 0x200a) || n == 0x2028 || n == 0x2029 || n == 0x202f || n == 0x205f
    || n == 0x3000

def trimSpace (s : Text) : Text :=
  ((s.dropWhile isWhiteSpace).reverse.dropWhile isWhiteSpace).reverse

/-- The text without its underscores, none if one stands at an end or beside another one. -/
def withoutUnderscores? (s : Text) : Option Text :=
  if startsWith s ['_'] || endsWith s ['_'] || includes s ['_', '_'] then none
  else some (s.filter (· != '_'))

/-! ### Integers -/

/-- The text without a point and zeros behind it, if there are some. -/
def withoutZeroFraction (s : Text) : Text :=
  match s.dropWhile (· != '.') with
  | '.' :: fraction => if consistsOf (· == '0') fraction then s.takeWhile (· != '.') else s
  | _ => s

/-- The number of characters of an integer text that count for its length: all behind a minus, and those
from the first other digit than zero otherwise. -/
def countedLength (negative : Bool) (digits : Text) : Nat :=
  if negative then digits.length + 1 else (digits.dropWhile (· == '0')).length

/-- The integer that a text spells: digits behind an optional sign, with single underscores between
digits, and with a fraction of zeros at most. -/
def intOfText (s : Text) : Except Issue Int :=
  let (negative, unsigned) := takeSign (trimSpace s)
  match withoutUnderscores? (withoutZeroFraction unsigned) with
  | none => .error notIntText
  | some digits =>
    if consistsOf isDigit digits then
      if countedLength negative digits ≤ Numeral.digitLimit then
        let n : Int := Numeral.value digits
        .ok (if negative then -n else n)
      else .error longIntText
    else .error notIntText

/-- The integer that a double is, if it is one of 64 bits. -/
def intOfDouble : Double → Except Issue Int
  | .finite negative m =>
    let whole := Double.wholePart m.units
    if Double.fractionUnits m.units = 0 ∧ whole < 2 ^ 63 then
      .ok (if negative then -whole else whole)
    else .error notIntegral
  | _ => .error notFinite

def int : Datum → Except Issue Int
  | .int n => .ok n
  | .bool b => .ok (if b then 1 else 0)
  | .double x => intOfDouble x
  | .text s => intOfText s
  | .bytes bs =>
    match Utf8.decode bs with
    | .ok s => intOfText s
    | .error _ => .error notIntText
  | _ => .error notInt

/-! ### Doubles -/

/-- The double that a text without blanks around it spells: a decimal literal, an infinity, or the word
for no number. A literal beyond the range of doubles is an infinity or a zero. -/
def spelledDouble? (s : Text) : Option Double :=
  match DoubleLiteral.ofText? s with
  | some (.decimal negative form) => some (Double.ofDecimal negative form)
  | some (.infinity negative) => some (.infinite negative)
  | some .nan => some .nan
  | _ => none

/-- The double that a text spells, with single underscores between its characters if there is no white
space around it. -/
def doubleOfText (s : Text) : Except Issue Double :=
  match spelledDouble? (trimSpace s) with
  | some x => .ok x
  | none =>
    match (withoutUnderscores? s).bind spelledDouble? with
    | some x => .ok x
    | none => .error notDoubleText

def double : Datum → Except Issue Double
  | .double x => .ok x
  | .bool b => .ok (.ofInt (if b then 1 else 0))
  | .int n =>
    match (Number.int n).toDouble with
    | .ok x => .ok x
    | .error _ => .error notDouble
  | .text s => doubleOfText s
  | .bytes bs =>
    match Utf8.decode bs with
    | .ok s => doubleOfText s
    | .error _ => .error notDoubleText
  | _ => .error notDouble

end Field

end Primitives
