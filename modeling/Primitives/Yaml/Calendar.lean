import Primitives.Datum
import Primitives.Number.Numeral
import Primitives.Yaml.Fault
import Primitives.Yaml.Tag

/-!
# Days and moments in documents

A timestamp in a document is a day, or a moment of a day with or without the distance of its zone from
universal time. The parts must exist in the calendar; the zone is looked at first, and lies less than a
day away.

## Main definitions

* `Date.ofParts`: a day of the calendar.
* `Yaml.datumOfTimestamp`: the day or the moment that a scalar stands for.
-/

namespace Primitives

/-! ### The calendar -/

/-- Whether a year has a day more than the others. -/
def isLeapYear (year : Nat) : Bool :=
  year % 4 = 0 && (year % 100 != 0 || year % 400 = 0)

/-- The number of days of a month. -/
def daysOfMonth (year month : Nat) : Nat :=
  if month = 2 then if isLeapYear year then 29 else 28
  else if month = 4 || month = 6 || month = 9 || month = 11 then 30
  else 31

/-- The day with a year, a month and a day of the month. -/
def Date.ofParts (year month day : Nat) : Except CalendarFault Date :=
  if year = 0 then .error (.year year)
  else if month = 0 || 12 < month then .error .month
  else if day = 0 || daysOfMonth year month < day then .error .day
  else .ok ⟨year, month, day⟩

/-- The moment of a day with a clock and a distance from universal time. -/
def Timestamp.ofParts (date : Date) (hour minute second microsecond : Nat) (offset : Option Int) :
    Except CalendarFault Timestamp :=
  if 23 < hour then .error .hour
  else if 59 < minute then .error .minute
  else if 59 < second then .error .second
  else .ok ⟨date, hour, minute, second, microsecond, offset⟩

namespace Yaml

/-! ### Parts -/

/-- The microseconds that the digits of a fraction of a second stand for; further digits are dropped. -/
def microsecondsOf (fraction : Text) : Nat :=
  let digits := fraction.take 6
  Numeral.value digits * 10 ^ (6 - digits.length)

/-- The minutes between a zone and universal time, less than a day of them. -/
def offsetMinutes : Option (Char × Text × Text) → Except CalendarFault Int
  | none => .ok 0
  | some (sign, hours, minutes) =>
    let distance : Int := 60 * Numeral.value hours + Numeral.value minutes
    let offset := if sign = '-' then -distance else distance
    if distance < 1440 then .ok offset else .error (.offset offset)

/-- The day or the moment that the parts of a timestamp stand for. -/
def TimestampParts.datum (parts : TimestampParts) : Except CalendarFault Datum := do
  let date := Date.ofParts (Numeral.value parts.year) (Numeral.value parts.month)
    (Numeral.value parts.day)
  match parts.clock with
  | none => return .date (← date)
  | some (hour, minute, second, fraction) =>
    let offset ← parts.zone.mapM offsetMinutes
    let moment ← Timestamp.ofParts (← date) (Numeral.value hour) (Numeral.value minute)
      (Numeral.value second) (microsecondsOf fraction) (offset.map (· * 60000000))
    return .timestamp moment

/-- The day or the moment that a scalar stands for. -/
def datumOfTimestamp (s : Text) : Except DocumentFault Datum :=
  match TimestampParts.ofText? (withoutFinalBreak s) with
  | none => .error .notTimestamp
  | some parts => parts.datum.mapError .calendar

end Yaml

end Primitives
