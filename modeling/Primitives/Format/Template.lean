import Primitives.Format.Placeholder

/-!
# Templates

A template is a text with placeholders `%[flags][width][.precision]conversion`, where two percent
signs stand for one. It is parsed once into texts and placeholders, in which no two texts are
adjacent, and rendered with a list of arguments. The number of arguments and their kinds are checked
before anything is rendered.

## Main definitions

* `Segment`, `Template`: parsed templates.
* `Template.parse`: parsing, with the reason and the offset of a rejection.
* `Template.render`: rendering.
-/

namespace Primitives

/-- A stretch of text or a placeholder. -/
inductive Segment where
  | text (s : Text)
  | placeholder (p : Placeholder)
deriving DecidableEq

/-- A parsed template together with its text. -/
structure Template where
  source : Text
  segments : List Segment
deriving DecidableEq

/-- Why a placeholder is rejected. -/
inductive PlaceholderFault where
  | incomplete
  | unknownConversion (c : Char)
  | alternateNotAllowed (c : Char)
deriving DecidableEq

/-- Why a text is not a template: a placeholder at an offset is rejected, or the width or precision
of one is beyond the limit of decimal numerals. -/
inductive TemplateFault where
  | placeholder (fault : PlaceholderFault) (offset : Nat)
  | numeral (fault : NumeralFault)
deriving DecidableEq

/-- Why a template does not render a list of arguments. -/
inductive ArgumentFault where
  | count (expected given : Nat)
  | kind (index : Nat) (name : Text) (conversion : Text) (offset : Nat)
  | tooLarge (index : Nat) (conversion : Text) (offset : Nat)
deriving DecidableEq

namespace Template

/-! ### Parsing -/

/-- The characters that are conversions of a template. -/
def conversions : Text :=
  ['s'] ++ Placeholder.integerConversions ++ Placeholder.doubleConversions ++ ['c', 'b']

/-- The conversions that have an alternate form. -/
def alternateConversions : Text :=
  ['x', 'X'] ++ Placeholder.doubleConversions

/-- Reads decimal digits, none for no digits. -/
def readNumber? (digits : Text) : Except TemplateFault (Option Int) :=
  if digits.isEmpty then .ok none
  else
    match Numeral.read digits with
    | .ok n => .ok (some n)
    | .error fault => .error (.numeral fault)

/-- The parts of a placeholder as they are written: the text behind a percent sign is parted into
flags, width, precision and the rest from the conversion on. -/
structure Parts where
  flags : Text
  width : Text
  precision : Option Text
  rest : Text

/-- The digits of a precision behind a point, and the rest. -/
def precisionPart : Text → Option Text × Text
  | '.' :: s => (some (s.takeWhile Text.isDigit), s.dropWhile Text.isDigit)
  | s => (none, s)

def Parts.ofText (s : Text) : Parts :=
  let numbers := s.dropWhile isFlag
  let (precision, rest) := precisionPart (numbers.dropWhile Text.isDigit)
  ⟨s.takeWhile isFlag, numbers.takeWhile Text.isDigit, precision, rest⟩

theorem length_dropWhile_le {α : Type} (p : α → Bool) (s : List α) :
    (s.dropWhile p).length ≤ s.length :=
  (List.dropWhile_suffix p).length_le

theorem Parts.length_rest_le (s : Text) : (Parts.ofText s).rest.length ≤ s.length := by
  have hflags := length_dropWhile_le isFlag s
  have hwidth := length_dropWhile_le Text.isDigit (s.dropWhile isFlag)
  simp only [Parts.ofText]
  generalize (s.dropWhile isFlag).dropWhile Text.isDigit = t at hwidth
  unfold precisionPart
  split
  · next t =>
    have hdigits := length_dropWhile_le Text.isDigit t
    simp only [List.length_cons] at hwidth ⊢
    omega
  · simp only
    omega

/-- The placeholder with the given parts and conversion. -/
def makePlaceholder (parts : Parts) (c : Char) (offset : Nat) :
    Except TemplateFault Placeholder := do
  let width ← readNumber? parts.width
  let precision ← match parts.precision with
    | none => .ok none
    | some digits => (readNumber? digits).map fun n => some (n.getD 0)
  if !conversions.contains c then
    throw (.placeholder (.unknownConversion c) offset)
  if parts.flags.contains '#' && !alternateConversions.contains c then
    throw (.placeholder (.alternateNotAllowed c) offset)
  return ⟨[c], parts.flags, width, precision, offset⟩

/-- The fault of a placeholder that the end of the template cuts off. -/
def incompletePlaceholder (parts : Parts) (offset : Nat) : Except TemplateFault Placeholder := do
  let _ ← readNumber? parts.width
  let _ ← readNumber? (parts.precision.getD [])
  throw (.placeholder .incomplete offset)

/-- Puts a character in front of segments, into the text they begin with if they do. -/
def consChar (c : Char) : List Segment → List Segment
  | .text s :: segments => .text (c :: s) :: segments
  | segments => .text [c] :: segments

/-- Parses the part of a template from an offset on. -/
def parseFrom (offset : Nat) (s : Text) : Except TemplateFault (List Segment) :=
  match s with
  | [] => .ok []
  | '%' :: '%' :: s => (parseFrom (offset + 2) s).map (consChar '%')
  | '%' :: s =>
    let parts := Parts.ofText s
    match h : parts.rest with
    | [] => (incompletePlaceholder parts offset).map fun _ => []
    | c :: rest => do
      let p ← makePlaceholder parts c offset
      let segments ← parseFrom (offset + 1 + (s.length - rest.length)) rest
      return .placeholder p :: segments
  | c :: s => (parseFrom (offset + 1) s).map (consChar c)
termination_by s.length
decreasing_by
  · simp only [List.length_cons]; omega
  · have hle := Parts.length_rest_le s
    have heq : (Parts.ofText s).rest = c :: rest := h
    rw [heq] at hle
    simp only [List.length_cons] at hle ⊢
    omega
  · simp

/-- Parses a template. -/
def parse (source : Text) : Except TemplateFault Template :=
  (parseFrom 0 source).map (Template.mk source)

/-- The placeholders in order. -/
def placeholders (t : Template) : List Placeholder :=
  t.segments.filterMap fun
    | .placeholder p => some p
    | .text _ => none

/-- The number of arguments that a template takes. -/
def arity (t : Template) : Nat :=
  t.placeholders.length

/-! ### Checking arguments -/

/-- Whether an argument is an integer too large for the double that a conversion asks for. -/
def isTooLarge (p : Placeholder) (v : Value) : Bool :=
  match v with
  | .int n => p.forDoubles && (Double.ofInt n).isInfinite
  | _ => false

/-- Checks arguments one by one from an index on. -/
def checkFrom (index : Nat) : List (Placeholder × Value) → Except ArgumentFault Unit
  | [] => .ok ()
  | (p, v) :: pairs =>
    if !p.accepts v then .error (.kind index v.kind p.conversion p.offset)
    else if isTooLarge p v then .error (.tooLarge index p.conversion p.offset)
    else checkFrom (index + 1) pairs

/-- Checks the number of arguments and then their kinds. -/
def check (t : Template) (args : List Value) : Except ArgumentFault Unit :=
  if args.length ≠ t.arity then .error (.count t.arity args.length)
  else checkFrom 0 (t.placeholders.zip args)

/-! ### Rendering -/

/-- Renders segments with arguments for their placeholders. -/
def renderSegments : List Segment → List Value → Except RenderFault Text
  | [], _ => .ok []
  | .text s :: segments, args => do
    let rest ← renderSegments segments args
    return s ++ rest
  | .placeholder p :: segments, args => do
    let first ← p.render (args.headD .null)
    let rest ← renderSegments segments args.tail
    return first ++ rest

end Template

/-- Why a template text and arguments give no text. -/
inductive FormatFault where
  | template (fault : TemplateFault) (source : Text)
  | argument (fault : ArgumentFault) (source : Text)
  | render (fault : RenderFault)
deriving DecidableEq

/-- Renders a template with arguments. -/
def Template.render (t : Template) (args : List Value) : Except FormatFault Text :=
  match t.check args with
  | .error fault => .error (.argument fault t.source)
  | .ok () => (renderSegments t.segments args).mapError .render

/-! ### Wording -/

/-- The wording of a rejected placeholder. -/
def PlaceholderFault.message : PlaceholderFault → Text
  | incomplete => "incomplete placeholder at end of template"
  | unknownConversion c => "unknown conversion '%" ++ [c] ++ ['\'']
  | alternateNotAllowed c => "flag '#' is not allowed with '%" ++ [c] ++ ['\'']

/-- The wording of rejected arguments. -/
def ArgumentFault.message : ArgumentFault → Text
  | count expected given =>
    "template expects " ++ Numeral.ofNat 10 expected ++ " argument(s), got "
      ++ Numeral.ofNat 10 given
  | kind index name conversion _ =>
    "argument " ++ Numeral.ofNat 10 index ++ " of kind " ++ name ++ " does not match '%"
      ++ conversion ++ ['\'']
  | tooLarge index conversion _ =>
    "argument " ++ Numeral.ofNat 10 index ++ " is too large for '%" ++ conversion ++ ['\'']

/-- The offset of the placeholder that arguments are rejected at, if it is one. -/
def ArgumentFault.offset? : ArgumentFault → Option Nat
  | count .. => none
  | kind _ _ _ offset => some offset
  | tooLarge _ _ offset => some offset

end Primitives
