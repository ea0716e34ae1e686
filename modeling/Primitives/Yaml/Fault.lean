import Primitives.Number.Numeral
import Primitives.Text.Quoted

/-!
# Faults of documents

A text that is no document is malformed, for whatever reason. A text can also be a document whose
scalars stand for no datum: a number that is spelled wrongly, a day that the calendar does not have, a
character that does not exist. A loader of documents takes bytes and can fail in further ways: the bytes
may not be a text at all.

## Main definitions

* `DocumentFault`: why a text has no datum.
* `DocumentFault.message`: the wording.
* `LoadFault`: why bytes have no datum.
-/

namespace Primitives

/-- What the calendar does not have. -/
inductive CalendarFault where
  | month
  | day
  | year (n : Nat)
  | hour
  | minute
  | second
  | offset (minutes : Int)
deriving DecidableEq

/-- Why a text has no datum. -/
inductive DocumentFault where
  | malformed
  | tooDeep
  | notInt (literal : Text) (base : Nat)
  | longInt (fault : NumeralFault)
  | notDouble (literal : Text)
  | emptyNumber
  | doubleOverflow
  | notBool (word : Text)
  | notTimestamp
  | calendar (fault : CalendarFault)
  | noCharacter
  | characterOverflow
deriving DecidableEq

/-- A distance in minutes as whole days, rounded down, and the seconds left over if there are some. -/
def distanceText (minutes : Int) : Text :=
  let seconds := minutes.fmod 1440 * 60
  let rest : Text := if seconds = 0 then [] else ", seconds=" ++ Numeral.ofInt 10 seconds
  "datetime.timedelta(days=" ++ Numeral.ofInt 10 (minutes.fdiv 1440) ++ rest ++ [')']

/-- The wording of a calendar fault. -/
def CalendarFault.message : CalendarFault → Text
  | month => "month must be in 1..12"
  | day => "day is out of range for month"
  | year n => "year " ++ Numeral.ofNat 10 n ++ " is out of range"
  | hour => "hour must be in 0..23"
  | minute => "minute must be in 0..59"
  | second => "second must be in 0..59"
  | offset minutes =>
    let bounds : Text := "strictly between -timedelta(hours=24) and timedelta(hours=24)"
    "offset must be a timedelta " ++ bounds ++ ", not " ++ distanceText minutes ++ ['.']

/-- The wording of a fault; malformed texts have none. -/
def DocumentFault.message : DocumentFault → Text
  | malformed => []
  | tooDeep => "maximum recursion depth exceeded"
  | notInt literal base =>
    "invalid literal for int() with base " ++ Numeral.ofNat 10 base ++ ": " ++ literal.quoted
  | longInt fault => fault.message
  | notDouble literal => "could not convert string to float: " ++ literal.quoted
  | emptyNumber => "string index out of range"
  | doubleOverflow => "int too large to convert to float"
  | notBool word => word.quoted
  | notTimestamp => "'NoneType' object has no attribute 'groupdict'"
  | calendar fault => fault.message
  | noCharacter => "chr() arg not in range(0x110000)"
  | characterOverflow => "Python int too large to convert to C int"

/-- Why a loader makes no datum of bytes: the document has a fault, the bytes encode no text, which the
wording tells about, or it fails in another way of a given kind. -/
inductive LoadFault where
  | document (fault : DocumentFault)
  | encoding (message : Text)
  | other (kind message : Text)
deriving DecidableEq

/-- A fault that the loader reports as one of the document itself. -/
abbrev LoadFault.malformed : LoadFault :=
  .document .malformed

end Primitives
