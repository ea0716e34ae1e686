import Primitives.Format.Floating
import Primitives.Text.Quoted
import Primitives.Value

/-!
# Canonical text of values

Every value has a canonical text. Truth values, integers, doubles with six significant digits, and
texts as they are; a list or a mapping shows its elements inside brackets, where texts are quoted and
doubles have their shortest text. An integer beyond the limit of decimal numerals has none.

## Main definitions

* `Value.inspect`: the text of a value inside a list or a mapping.
* `Value.render`: the canonical text.
-/

namespace Primitives.Value

/-- The items of a list or a mapping in brackets. -/
def bracketed (left right : Char) (items : List Text) : Text :=
  left :: [',', ' '].intercalate items ++ [right]

mutual

/-- The text of a value inside a list or a mapping. Lists and mappings may be nested to any depth; that of
nested calls is not modelled. -/
def inspect : Value → Except NumeralFault Text
  | null => .ok "None"
  | bool b => .ok (if b then "True" else "False")
  | int n => Numeral.decimal n
  | double x => .ok x.text
  | text s => .ok s.quoted
  | list items => do return bracketed '[' ']' (← inspectItems items)
  | mapping entries => do return bracketed '\x7b' '\x7d' (← inspectEntries entries)

def inspectItems : List Value → Except NumeralFault (List Text)
  | [] => .ok []
  | v :: items => do
    let first ← inspect v
    let rest ← inspectItems items
    return first :: rest

def inspectEntries : List (Text × Value) → Except NumeralFault (List Text)
  | [] => .ok []
  | (key, v) :: entries => do
    let first ← inspect v
    let rest ← inspectEntries entries
    return (key.quoted ++ ": " ++ first) :: rest

end

/-- The canonical text of a value. -/
def render : Value → Except NumeralFault Text
  | bool b => .ok (if b then "true" else "false")
  | double x => .ok x.general
  | text s => .ok s
  | v => v.inspect

end Primitives.Value
