import Primitives.Codec.Utf8
import Primitives.Value

/-!
# Data

The data that a configuration is made of: the values of programs, and the further kinds that a
document can hold, which are bytes, dates, timestamps and sets. The keys of a mapping may be any data.

## Main definitions

* `Date`, `Timestamp`: a day and a moment of the calendar.
* `Datum`: data.
* `Datum.ofValue`: a value as data.
* `Datum.kind`: the name of the kind of a datum.
-/

namespace Primitives

/-- A day of the calendar. -/
structure Date where
  year : Nat
  month : Nat
  day : Nat
deriving DecidableEq

/-- A moment of a day, with its distance from universal time in microseconds if that is known. -/
structure Timestamp where
  date : Date
  hour : Nat
  minute : Nat
  second : Nat
  microsecond : Nat
  offset : Option Int
deriving DecidableEq

/-- A datum. Lists, sets and mappings keep their order. -/
inductive Datum where
  | null
  | bool (b : Bool)
  | int (n : Int)
  | double (x : Double)
  | text (s : Text)
  | bytes (bs : Bytes)
  | date (d : Date)
  | timestamp (t : Timestamp)
  | list (items : List Datum)
  | set (items : List Datum)
  | mapping (entries : List (Datum × Datum))

namespace Datum

instance : Inhabited Datum := ⟨null⟩

/-- The name of the kind of a datum. -/
def kind : Datum → Text
  | null => "NoneType"
  | bool _ => "bool"
  | int _ => "int"
  | double _ => "float"
  | text _ => "str"
  | bytes _ => "bytes"
  | date _ => "date"
  | timestamp _ => "datetime"
  | list _ => "list"
  | set _ => "set"
  | mapping _ => "dict"

/-- Whether a datum may be a key of a mapping or an element of a set. -/
def isKey : Datum → Bool
  | list _ | set _ | mapping _ => false
  | _ => true

mutual

/-- A value as data. -/
def ofValue : Value → Datum
  | .null => null
  | .bool b => bool b
  | .int n => int n
  | .double x => double x
  | .text s => text s
  | .list items => list (ofItems items)
  | .mapping entries => mapping (ofEntries entries)

def ofItems : List Value → List Datum
  | [] => []
  | v :: items => ofValue v :: ofItems items

def ofEntries : List (Text × Value) → List (Datum × Datum)
  | [] => []
  | (key, v) :: entries => (text key, ofValue v) :: ofEntries entries

end

/-- Sets the value of a text key: in place if the key occurs, at the end otherwise. -/
def putText (key : Text) (v : Datum) : List (Datum × Datum) → List (Datum × Datum)
  | [] => [(text key, v)]
  | (text other, w) :: entries =>
    if key = other then (text other, v) :: entries else (text other, w) :: putText key v entries
  | entry :: entries => entry :: putText key v entries

/-- Adds an entry to a mapping. A later entry of a text key takes the place of an earlier one; other keys
are not compared. -/
def put (entries : List (Datum × Datum)) (key v : Datum) : List (Datum × Datum) :=
  match key with
  | text s => putText s v entries
  | key => entries ++ [(key, v)]

/-- The entries with the texts that are their keys, none if some key is no text. -/
def textEntries? : List (Datum × Datum) → Option (List (Text × Datum))
  | [] => some []
  | (text key, v) :: entries => (textEntries? entries).map ((key, v) :: ·)
  | _ => none

end Datum

end Primitives
