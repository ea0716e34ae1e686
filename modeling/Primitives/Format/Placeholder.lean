import Primitives.Format.Directive
import Primitives.Format.Rendering
import Primitives.Text.Search

/-!
# Placeholders

A placeholder is the place of one argument in a template. Its conversion says which arguments it
accepts, and its *specification* is the directive it stands for, as text. Rendering an argument reads
the directive back from the specification.

## Main definitions

* `Placeholder`: placeholders.
* `Placeholder.spec`: the specification.
* `Placeholder.accepts`: whether an argument has the right kind.
* `Placeholder.render`: the text of an argument.
-/

namespace Primitives

/-- The place of one argument. A template gives a conversion of one character; further characters are
literal text behind it. -/
structure Placeholder where
  conversion : Text
  flags : Text
  width : Option Int
  precision : Option Int
  offset : Nat
deriving DecidableEq

/-- Why an accepted argument has no text. -/
inductive RenderFault where
  | directive (fault : DirectiveFault)
  | tooLargeForDouble
deriving DecidableEq

namespace Placeholder

/-- The conversions for integers and for doubles. -/
def integerConversions : Text := "dixXo"

def doubleConversions : Text := "fFeEgG"

/-- Whether a conversion is one for integers. -/
def forIntegers (p : Placeholder) : Bool :=
  Text.includes integerConversions p.conversion

/-- Whether a conversion is one for doubles. -/
def forDoubles (p : Placeholder) : Bool :=
  Text.includes doubleConversions p.conversion

/-! ### Specifications -/

/-- The specification with a given conversion, with or without the precision. -/
def specAs (p : Placeholder) (conversion : Text) (withPrecision : Bool) :
    Except NumeralFault Text := do
  let width ← match p.width with
    | some w => Numeral.decimal w
    | none => .ok []
  let precision ← match p.precision with
    | some n => if withPrecision then (Numeral.decimal n).map ('.' :: ·) else .ok []
    | none => .ok []
  return '%' :: p.flags ++ width ++ precision ++ conversion

/-- The specification: a percent sign, flags, width, precision and conversion. -/
def spec (p : Placeholder) : Except NumeralFault Text :=
  p.specAs p.conversion true

/-! ### Arguments -/

/-- Whether an argument has a kind that the conversion takes. -/
def accepts (p : Placeholder) (v : Value) : Bool :=
  match v with
  | .bool _ => p.conversion == ['s'] || p.conversion == ['b']
  | .int n =>
    p.conversion == ['s'] || p.forIntegers || p.forDoubles
      || (p.conversion == ['c'] && decide (0 ≤ n ∧ n ≤ 255))
  | .double _ => p.conversion == ['s'] || (p.forDoubles && !p.forIntegers)
  | .text s => p.conversion == ['s'] || (p.conversion == ['c'] && s.length == 1)
  | _ => false

/-- An argument prepared for layout. -/
inductive Argument where
  | text (s : Text)
  | int (n : Int)
  | double (x : Double)

/-- Lays out an argument by the directive that a specification begins with, followed by the rest of
the specification. -/
def layout (spec : Text) (argument : Argument) : Except RenderFault Text :=
  match Directive.ofText 1 (spec.drop 1) with
  | .error fault => .error (.directive fault)
  | .ok (d, rest) =>
    match argument with
    | .text s => .ok (d.layoutText s ++ rest)
    | .double x => .ok (d.layoutDouble x ++ rest)
    | .int n =>
      match d.layoutInt n with
      | .error fault => .error (.directive fault)
      | .ok s => .ok (s ++ rest)

/-- A numeral fault as a fault of rendering. -/
def numeral {α : Type} (r : Except NumeralFault α) : Except RenderFault α :=
  r.mapError fun fault => .directive (.numeral fault)

/-- The one character of a text, or the character with a given code. -/
def character : Value → Text
  | .int n => [Char.ofNat n.toNat]
  | .text s => s
  | _ => []

/-- The text of an accepted argument. -/
def render (p : Placeholder) (v : Value) : Except RenderFault Text := do
  if p.conversion == ['s'] || p.conversion == ['b'] then
    let spec ← numeral (p.specAs ['s'] true)
    let s ← numeral v.render
    layout spec (.text s)
  else if p.conversion == ['c'] then
    let spec ← numeral (p.specAs ['c'] false)
    layout spec (.text (character v))
  else
    let spec ← numeral p.spec
    if p.forDoubles then
      match v.toNumber?.map Number.toDouble with
      | some (.ok x) => layout spec (.double x)
      | _ => .error .tooLargeForDouble
    else layout spec (.int (v.toInt?.getD 0))

end Placeholder

end Primitives
