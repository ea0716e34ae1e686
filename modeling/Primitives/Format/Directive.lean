import Primitives.Format.Floating

/-!
# Directives

A directive tells how one value is laid out: flags, a least width, a precision and a conversion
letter. A number is laid out as a sign, a base mark and digits; the flag `0` fills with zeros between
mark and digits, the flag `-` with spaces behind, and otherwise spaces stand in front. A text is cut
to the precision and filled with spaces.

## Main definitions

* `Flags`, `Directive`: directives.
* `Directive.ofText`: the directive at the head of a text, and the text behind it.
* `Directive.layoutText`, `Directive.layoutInt`, `Directive.layoutDouble`: the layout of values.
-/

namespace Primitives

/-- The flags `-`, `+`, space, `#` and `0`. -/
structure Flags where
  left : Bool
  plus : Bool
  blank : Bool
  alternate : Bool
  zeros : Bool
deriving DecidableEq

/-- The layout of one value. -/
structure Directive where
  flags : Flags
  width : Nat
  precision : Option Nat
  conversion : Char
deriving DecidableEq

/-- Why a text has no directive at its head, or a directive no layout. -/
inductive DirectiveFault where
  | widthTooBig
  | precisionTooBig
  | precisionTooLarge
  | incomplete
  | unsupported (conversion : Char) (index : Nat)
  | numeral (fault : NumeralFault)
deriving DecidableEq

/-- The wording of a directive fault. -/
def DirectiveFault.message : DirectiveFault → Text
  | widthTooBig => "width too big"
  | precisionTooBig => "precision too big"
  | precisionTooLarge => "precision too large"
  | incomplete => "incomplete format"
  | unsupported conversion index =>
    let shown := if 31 ≤ conversion.toNat ∧ conversion.toNat ≤ 126 then conversion else '?'
    "unsupported format character '" ++ [shown] ++ "' (0x" ++ Numeral.ofNat 16 conversion.toNat
      ++ ") at index " ++ Numeral.ofNat 10 index
  | numeral fault => fault.message

/-! ### Reading -/

/-- The characters that are flags. -/
def isFlag (c : Char) : Bool :=
  c == '-' || c == '+' || c == ' ' || c == '#' || c == '0'

/-- The flags that occur in a text. -/
def Flags.ofText (s : Text) : Flags :=
  ⟨s.contains '-', s.contains '+', s.contains ' ', s.contains '#', s.contains '0'⟩

namespace Directive

/-- Widths are below this bound, the number of positions of a host array. -/
def widthLimit : Nat := 2 ^ 63

/-- Precisions are below this bound. -/
def precisionLimit : Nat := 2 ^ 31

/-- The precision behind a point, where no digits mean zero; nothing without a point. -/
def takePrecision : Text → Option Nat × Text
  | '.' :: s => (some (Numeral.value (s.takeWhile Text.isDigit)), s.dropWhile Text.isDigit)
  | s => (none, s)

/-- A letter for the size of the argument, which has no meaning. -/
def dropSize : Text → Text
  | c :: s => if c == 'h' || c == 'l' || c == 'L' then s else c :: s
  | [] => []

/-- The letters that are conversions. -/
def isConversion (c : Char) : Bool :=
  "sdixXofFeEgGc".toList.contains c

/-- Reads the directive at the head of a text, of which `index` characters stand in front; also gives
the text behind it. -/
def ofText (index : Nat) (s : Text) : Except DirectiveFault (Directive × Text) :=
  let rest := s.dropWhile isFlag
  let width := Numeral.value (rest.takeWhile Text.isDigit)
  if widthLimit ≤ width then .error .widthTooBig
  else
    let (precision, rest) := takePrecision (rest.dropWhile Text.isDigit)
    if precision.any (precisionLimit ≤ ·) then .error .precisionTooBig
    else
      match dropSize rest with
      | [] => .error .incomplete
      | c :: tail =>
        if isConversion c then
          .ok (⟨.ofText (s.takeWhile isFlag), width, precision, c⟩, tail)
        else .error (.unsupported c (index + (s.length - tail.length) - 1))

/-! ### Layout -/

/-- Fills a field of text up to the width with spaces. There is memory for every width. -/
def fill (d : Directive) (s : Text) : Text :=
  let gap := List.replicate (d.width - s.length) ' '
  if d.flags.left then s ++ gap else gap ++ s

/-- Lays out a number given by its sign, its base mark and its digits. -/
def fillNumber (d : Directive) (negative : Bool) (mark digits : Text) : Text :=
  let sign : Text :=
    if negative then ['-'] else if d.flags.plus then ['+'] else if d.flags.blank then [' '] else []
  if d.flags.zeros && !d.flags.left then
    let gap := d.width - (sign.length + mark.length + digits.length)
    sign ++ mark ++ List.replicate gap '0' ++ digits
  else d.fill (sign ++ mark ++ digits)

/-- Lays out a text, cut to the precision. -/
def layoutText (d : Directive) (s : Text) : Text :=
  d.fill (match d.precision with
    | some p => s.take p
    | none => s)

/-- The base of an integer conversion. -/
def base (d : Directive) : Nat :=
  if d.conversion == 'x' || d.conversion == 'X' then 16 else if d.conversion == 'o' then 8 else 10

/-- The digits of a magnitude in the base of the conversion; decimal ones are limited. -/
def intDigits (d : Directive) (n : Nat) : Except NumeralFault Text :=
  if d.base = 10 then Numeral.decimal n else .ok (Numeral.ofNat d.base n)

/-- The mark that the alternate form puts in front of digits that are not decimal. -/
def baseMark (d : Directive) : Text :=
  if d.flags.alternate && d.base != 10 then ['0', d.conversion] else []

/-- Lays out an integer, with zeros up to the precision in front of the digits. -/
def layoutInt (d : Directive) (n : Int) : Except DirectiveFault Text :=
  let least := d.precision.getD 0
  if precisionLimit - 4 < least then .error .precisionTooLarge
  else
    match d.intDigits n.natAbs with
    | .error fault => .error (.numeral fault)
    | .ok digits =>
      let digits := if d.conversion == 'X' then Text.upper digits else digits
      .ok (d.fillNumber (n < 0) d.baseMark
        (List.replicate (least - digits.length) '0' ++ digits))

/-- The notation of magnitudes that the conversion letter asks for, without regard to case. -/
def notationOf (d : Directive) : Nat → Text :=
  let digits := d.precision.getD 6
  match Text.lowerChar d.conversion with
  | 'f' => Notation.fixed d.flags.alternate digits
  | 'e' => Notation.exponent d.flags.alternate digits
  | _ => Notation.general d.flags.alternate digits

/-- Lays out a double; a conversion in upper case writes all letters in upper case. -/
def layoutDouble (d : Directive) (x : Double) : Text :=
  let body := x.abs.inNotation d.notationOf
  d.fillNumber x.isNegative [] (if Text.isUpperLetter d.conversion then Text.upper body else body)

end Directive

end Primitives
