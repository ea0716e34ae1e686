import Primitives.Library.Operation
import Primitives.Number.Literal
import Primitives.Session.Settings
import Primitives.Text.Parts
import Primitives.Text.Search

/-!
# Text operations

The operations on texts that programs call by name. Positions that do not exist are -1, and a number that
a text does not spell becomes a default.

## Main definitions

* `textOperations`: the operations.
-/

namespace Primitives

open Arguments

variable [Surroundings]

/-- A position, or -1 for none. -/
def positionValue (p : Option Nat) : Value :=
  .int (p.elim (-1) Int.ofNat)

/-- The integer part of a number. -/
def wholeNumber : Number → Except NoInteger Int
  | .int n => .ok n
  | .double (.finite negative m) =>
    .ok (if negative then -Double.wholePart m.units else Double.wholePart m.units)
  | .double (.infinite _) => .error .infinite
  | .double .nan => .error .nan

/-- The decimal numeral of the integer part of a number. -/
def textOfWhole (x : Number) : Except Fault Value := do
  let n ← (wholeNumber x).mapError .noInteger
  let s ← (Numeral.decimal n).mapError .numeral
  return .text s

/-- The text of the double that a number is rounded to. -/
def textOfDouble (x : Number) : Except Fault Value := do
  let x ← x.toDouble.mapError fun _ => .tooLargeForDouble
  return .text x.text

/-- The integer that a text spells, or a default that is reported. -/
def intOrDefault (s : Text) (default : Value) : Action Value := do
  match parseInt s with
  | some n => return .int n
  | none =>
    Action.report "KaedeRT.text" .debug ("to_int: malformed integer text " ++ s.quoted)
    return default

/-- The double that a text spells, or a default that is reported. -/
def doubleOrDefault (s : Text) (default : Value) : Action Value := do
  match ← Action.ofExcept .misspelledDouble (parseDouble s) with
  | some x => return .double x
  | none =>
    Action.report "KaedeRT.text" .debug ("to_float: malformed float text " ++ s.quoted)
    return default

/-- The character at a position, or the one that the settings name for positions outside. -/
def characterAt (s : Text) (i : Int) : Action Value := do
  match s.charAt? i with
  | some c => return .text [c]
  | none => return .text [(← Action.settings).nullChar]

/-- A padded text, unless the host cannot hold the filling. -/
def padded (pad : Text → Int → Text → Text) (s : Text) (width : Int) (fill : Text) :
    Except Fault Value := do
  let () ← (s.checkPad width fill).mapError .repetition
  return .text (pad s width fill)

/-- An operation that asks something of a text. -/
def textQuestion (name remark : String) (f : Text → Bool) : Operation :=
  .plain name remark do return .bool (f (← text))

/-- An operation that makes a text of a text. -/
def textChange (name remark : String) (f : Text → Text) : Operation :=
  .plain name remark do return .text (f (← text))

/-- An operation that asks something of two texts. -/
def textRelation (name : String) (f : Text → Text → Bool) : Operation :=
  .plain name "" do return .bool (f (← text) (← text))

def textOperations : List Operation :=
  [.plain "len" "" do return .int (← text).length,
    textQuestion "isEmpty" "" List.isEmpty,
    .acting "charAt" "Character at index, or the null character when out of bounds" do
      return characterAt (← text) (← int),
    .plain "slice" "Slice with negative indices counted from the end

        Both bounds are clamped into [0, length]; an empty text is returned
        when start >= end after clamping.

        Args:
            s: Source text
            start: First index (negative counts from the end)
            end: Index after the last character, defaults to the length

        Returns:
            The selected text" do
      return .text ((← text).slice (← int) (← nullable int)),
    .plain "substring" "Slice with absolute indices only; negative bounds clamp to 0" do
      return .text ((← text).substring (← int) (← nullable int)),
    .plain "indexOf" "First position of search at or after start, or -1" do
      return positionValue ((← text).indexOf? (← text) (← withDefault 0 int)),
    .plain "lastIndexOf" "" do
      let s ← text
      return positionValue (Text.last? (← text) s),
    textRelation "contains" Text.includes,
    textRelation "startsWith" Text.startsWith,
    textRelation "endsWith" Text.endsWith,
    textChange "toUpper" "" Text.upper,
    textChange "toLower" "" Text.lower,
    textChange "capitalize" "Upper-case the first character; the rest is left as is"
      Text.capitalize,
    textChange "trim" "" Text.trim,
    textChange "trimLeft" "" Text.trimLeft,
    textChange "trimRight" "" Text.trimRight,
    textQuestion "isDigit" "" (Text.consistsOf Text.isDigit),
    textQuestion "isAlpha" "" (Text.consistsOf Text.isLetter),
    textQuestion "isAlnum" "" (Text.consistsOf fun c => Text.isLetter c || Text.isDigit c),
    textQuestion "isSpace" "" (Text.consistsOf Text.isBlank),
    textQuestion "isNumeric" "Loose check: only digits, '.', '-' and '+'"
      (Text.consistsOf fun c => Text.isDigit c || c == '.' || c == '-' || c == '+'),
    .plain "split" "Split text on a delimiter

        An empty delimiter yields one element per character. Otherwise the
        result always has at least one element, the whole text when the
        delimiter never occurs." do
      return .list (((← text).split (← withDefault [' '] text)).map .text),
    .plain "join" "" do return .text (Text.join (← texts) (← withDefault [] text)),
    .plain "replace" "Replace every non-overlapping occurrence, left to right" do
      return .text ((← text).replace (← text) (← text)),
    .plain "replaceFirst" "" do return .text ((← text).replaceFirst (← text) (← text)),
    .checked "repeat" "" do
      let s ← text
      let n ← int
      return do
        let () ← (s.checkRepeat n).mapError .repetition
        return .text (s.repeated n),
    .checked "padLeft" "" do
      return padded Text.padLeft (← text) (← int) (← withDefault [' '] text),
    .checked "padRight" "" do
      return padded Text.padRight (← text) (← int) (← withDefault [' '] text),
    textChange "reverse" "" List.reverse,
    .acting "toInt" "Parse a signed 64-bit decimal integer

        Args:
            s: Text to parse
            default: Value returned for malformed or out-of-range text

        Returns:
            Parsed integer or default" do
      return intOrDefault (← text) (← withDefault (.int 0) value),
    .acting "toFloat" "Parse a decimal floating point number, or return default" do
      return doubleOrDefault (← text) (← withDefault (.double (.zero false)) value),
    .checked "fromInt" "" do return textOfWhole (← number),
    .checked "fromFloat" "Shortest text that to_float parses back to the same double" do
      return textOfDouble (← number)]

end Primitives
