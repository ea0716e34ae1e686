import Primitives.Number.Basic
import Primitives.Number.Shortest

/-!
# Values of compiled programs

The values that pass between a program and its primitives: the empty value, truth values, integers,
doubles, texts, lists and mappings. The first four kinds after the empty one are *primitive*.

## Main definitions

* `Value`: the values.
* `Value.kind`: the name of the kind of a value.
* `Value.toInt?`, `Value.toNumber?`: the numbers that values stand for.
-/

namespace Primitives

/-- A value of a program; a mapping keeps the order of its entries. -/
inductive Value where
  | null
  | bool (b : Bool)
  | int (n : Int)
  | double (x : Double)
  | text (s : Text)
  | list (items : List Value)
  | mapping (entries : List (Text × Value))

namespace Value

instance : Inhabited Value := ⟨null⟩

/-- The integer of an integer or of a truth value, which counts as zero or one. -/
def toInt? : Value → Option Int
  | int n => some n
  | bool b => some (if b then 1 else 0)
  | _ => none

/-- The number of a number or of a truth value. -/
def toNumber? : Value → Option Number
  | double x => some (.double x)
  | v => v.toInt?.map .int

def ofNumber : Number → Value
  | .int n => int n
  | .double x => double x

/-- The name of the kind of a value. -/
def kind : Value → Text
  | null => "NoneType"
  | bool _ => "bool"
  | int _ => "int"
  | double _ => "float"
  | text _ => "text"
  | list _ => "list"
  | mapping _ => "dict"

end Value

end Primitives
