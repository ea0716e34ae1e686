import Primitives.Text.Parts
import Primitives.Yaml.Cursor

/-!
# Tags

The tag of a node says what kind of datum the node stands for. A plain scalar without a tag gets the one
of the first form that it has: truth values, doubles, integers, the mark of merged mappings, the empty
value, timestamps, and the mark of default values. Everything else is text.

## Main definitions

* `Yaml.Tag`, `Yaml.Tag.ofName`: tags.
* `Yaml.isBool`, `Yaml.isDouble`, `Yaml.isInt`, `Yaml.isTimestamp`: forms of scalars.
* `Yaml.Tag.ofPlain`: the tag of a plain scalar.
-/

namespace Primitives.Yaml

open Text

/-- The kind of datum that a node stands for. -/
inductive Tag where
  | null
  | bool
  | int
  | double
  | binary
  | timestamp
  | text
  | sequence
  | mapping
  | set
  | orderedPairs
  | pairs
  | merge
  | default
  | other
deriving DecidableEq

/-! ### Names of tags -/

/-- The beginning of the names of known tags. -/
def tagStem : Text := "tag:yaml.org,2002:"

/-- The known tags by the end of their names. -/
def knownTags : List (String × Tag) :=
  [("null", .null), ("bool", .bool), ("int", .int), ("float", .double), ("binary", .binary),
    ("timestamp", .timestamp), ("str", .text), ("seq", .sequence), ("map", .mapping),
    ("set", .set), ("omap", .orderedPairs), ("pairs", .pairs), ("merge", .merge),
    ("value", .default)]

/-- The tag of a name. -/
def Tag.ofName (name : Text) : Tag :=
  match knownTags.find? fun (suffix, _) => tagStem ++ suffix.toList == name with
  | some (_, tag) => tag
  | none => .other

/-! ### Words -/

/-- A word in small letters, with a capital, or in capitals. -/
def isWord (word s : Text) : Bool :=
  s == word || s == capitalize word || s == upper word

/-- Whether a scalar has the form of a truth value. -/
def isBool (s : Text) : Bool :=
  ["yes", "no", "true", "false", "on", "off"].any fun word => isWord word.toList s

/-- Whether a scalar has the form of the empty value. -/
def isNull (s : Text) : Bool :=
  s.isEmpty || s == ['~'] || isWord "null" s

/-! ### Numbers -/

/-- The scalar without a sign at its beginning. -/
def unsigned : Text → Text
  | '+' :: s => s
  | '-' :: s => s
  | s => s

def isDigitOrUnderscore (c : Char) : Bool :=
  isDigit c || c == '_'

/-- Digits and underscores that begin with a digit. -/
def isDigitRun : Text → Bool
  | c :: s => isDigit c && s.all isDigitOrUnderscore
  | [] => false

/-- A number below sixty in one or two digits. -/
def isSixtieth : Text → Bool
  | [c] => isDigit c
  | [c, d] => '0' ≤ c && c ≤ '5' && isDigit d
  | _ => false

/-- An exponent with a sign, or nothing. -/
def isExponent : Text → Bool
  | [] => true
  | e :: sign :: digits =>
    (e == 'e' || e == 'E') && (sign == '+' || sign == '-') && consistsOf isDigit digits
  | _ => false

/-- Digits and underscores behind a point, and an exponent. -/
def isFraction (s : Text) : Bool :=
  isExponent (s.dropWhile isDigitOrUnderscore)

/-- Numbers below sixty behind a first one, with colons between them. -/
def isSixtiethsRun (first : Text → Bool) (s : Text) : Bool :=
  match s.split [':'] with
  | head :: tail => first head && !tail.isEmpty && tail.all isSixtieth
  | [] => false

/-- A double with digits in front of its point. -/
def isPointed (s : Text) : Bool :=
  match s.dropWhile isDigitOrUnderscore with
  | '.' :: rest => isDigitRun (s.takeWhile isDigitOrUnderscore) && isFraction rest
  | _ => false

/-- A double without digits in front of its point. -/
def isBarePoint : Text → Bool
  | '.' :: c :: s => isDigit c && isFraction s
  | _ => false

/-- A double in numbers to the base sixty, the last of them with a point. -/
def isSixtiethsDouble (s : Text) : Bool :=
  let whole := s.takeWhile (· != '.')
  match s.dropWhile (· != '.') with
  | '.' :: rest => isSixtiethsRun isDigitRun whole && rest.all isDigitOrUnderscore
  | _ => false

/-- Whether a scalar has the form of a double. -/
def isDouble (s : Text) : Bool :=
  let body := unsigned s
  isPointed body || isBarePoint s || isSixtiethsDouble body
    || [".inf", ".Inf", ".INF"].any (·.toList == body)
    || [".nan", ".NaN", ".NAN"].any (·.toList == s)

/-- Digits of a base and underscores behind a zero and a letter. -/
def isBased (letter : Char) (p : Char → Bool) : Text → Bool
  | '0' :: c :: s => c == letter && consistsOf (fun x => p x || x == '_') s
  | _ => false

/-- An octal number behind a zero. -/
def isOctal : Text → Bool
  | '0' :: s => consistsOf (fun c => ('0' ≤ c && c ≤ '7') || c == '_') s
  | _ => false

/-- A decimal number that does not begin with a zero. -/
def isDecimal : Text → Bool
  | c :: s => '1' ≤ c && c ≤ '9' && s.all isDigitOrUnderscore
  | [] => false

/-- Whether a scalar has the form of an integer. -/
def isInt (s : Text) : Bool :=
  let body := unsigned s
  isBased 'b' (fun c => c == '0' || c == '1') body || isOctal body || body == ['0']
    || isDecimal body || isBased 'x' isHexDigit body || isSixtiethsRun isDecimal body

/-! ### Timestamps -/

/-- The parts of a timestamp as they are written. The clock has an hour, minutes, seconds and a fraction
of them, the zone a sign, hours and minutes; the zone of universal time has neither. -/
structure TimestampParts where
  year : Text
  month : Text
  day : Text
  clock : Option (Text × Text × Text × Text)
  zone : Option (Option (Char × Text × Text))

/-- One or two digits at the beginning of a text, as many as there are, and the rest. -/
def takeOneOrTwo? (s : Text) : Option (Text × Text) :=
  let digits := (s.take 2).takeWhile isDigit
  if digits.isEmpty then none else some (digits, s.drop digits.length)

/-- Exactly some digits at the beginning of a text, and the rest. -/
def takeDigits? (n : Nat) (s : Text) : Option (Text × Text) :=
  if (s.take n).length = n && (s.take n).all isDigit then some (s.take n, s.drop n) else none

/-- The rest behind a character. -/
def behind? (c : Char) : Text → Option Text
  | x :: s => if x = c then some s else none
  | [] => none

/-- The zone at the end of a timestamp. -/
def zone? (s : Text) : Option (Option (Option (Char × Text × Text))) :=
  let body := s.dropWhile isSpaceOrTab
  match body with
  | [] => if s.isEmpty then some none else none
  | ['Z'] => some (some none)
  | sign :: rest =>
    if sign != '+' && sign != '-' then none
    else do
      let (hours, rest) ← takeOneOrTwo? rest
      if rest.isEmpty then return some (some (sign, hours, []))
      let (minutes, rest) ← takeDigits? 2 (← behind? ':' rest)
      if rest.isEmpty then return some (some (sign, hours, minutes)) else none

/-- The clock of a timestamp and the rest behind it. -/
def clock? (s : Text) : Option ((Text × Text × Text × Text) × Text) := do
  let (hour, s) ← takeOneOrTwo? s
  let (minute, s) ← takeDigits? 2 (← behind? ':' s)
  let (second, s) ← takeDigits? 2 (← behind? ':' s)
  match s with
  | '.' :: s => return ((hour, minute, second, s.takeWhile isDigit), s.dropWhile isDigit)
  | s => return ((hour, minute, second, []), s)

/-- The rest behind what stands between a day and a clock. -/
def behindDay? : Text → Option Text
  | 'T' :: s => some s
  | 't' :: s => some s
  | c :: s => if isSpaceOrTab c then some (s.dropWhile isSpaceOrTab) else none
  | [] => none

/-- The parts of a timestamp: a day, and perhaps a clock and a zone behind it. -/
def TimestampParts.ofText? (s : Text) : Option TimestampParts := do
  let (year, s) ← takeDigits? 4 s
  let (month, s) ← takeOneOrTwo? (← behind? '-' s)
  let (day, s) ← takeOneOrTwo? (← behind? '-' s)
  if s.isEmpty then return ⟨year, month, day, none, none⟩
  let (clock, s) ← clock? (← behindDay? s)
  return ⟨year, month, day, some clock, ← zone? s⟩

/-- Whether a scalar has the form of a timestamp: without a clock, month and day have two digits. -/
def isTimestamp (s : Text) : Bool :=
  match TimestampParts.ofText? s with
  | some parts => parts.clock.isSome || (parts.month.length == 2 && parts.day.length == 2)
  | none => false

/-! ### Plain scalars -/

/-- The scalar without a line feed at its end, which no form takes into account. -/
def withoutFinalBreak (s : Text) : Text :=
  if s.getLast? == some '\n' then s.dropLast else s

/-- The tag of a plain scalar. -/
def Tag.ofPlain (s : Text) : Tag :=
  if s.isEmpty then .null
  else
    let form := withoutFinalBreak s
    if form.isEmpty then .text
    else if isBool form then .bool
    else if isDouble form then .double
    else if isInt form then .int
    else if form == ['<', '<'] then .merge
    else if isNull form then .null
    else if isTimestamp form then .timestamp
    else if form == ['='] then .default
    else if form == ['!'] || form == ['&'] || form == ['*'] then .other
    else .text

end Primitives.Yaml
