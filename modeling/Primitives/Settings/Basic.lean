import Primitives.Record
import Primitives.Surroundings
import Primitives.Text.Ascii
import Primitives.Text.Quoted

/-!
# Settings

The settings of the primitives: fallback values, the encoding of files, the seed of random draws, the
mark of traced values and the level of logging. Every setting has a default. Settings are read from a
mapping by field names; all fields are checked, and the issues of all of them are reported together,
those of unknown fields last. Which data a field takes for a text, an integer or a double, and which
encodings are known, is up to the surroundings.

## Main definitions

* `Settings`: settings, with their defaults.
* `Settings.ofEntries`, `Settings.ofDatum`: settings from data.
* `SettingsFault`: why data are no settings.
* `Settings.toValue`: settings as a value.
-/

namespace Primitives

/-- Settings of the primitives. `nullChar` stands for characters outside of a text, and a missing seed
asks for one from entropy. -/
structure Settings where
  nullChar : Char := '\x00'
  fileEncoding : Text := "latin-1"
  randomSeed : Option Int := none
  readIntDefault : Int := 0
  readDoubleDefault : Double := .zero false
  debugPrefix : Text := "[DEBUG]"
  logLevel : Level := .warning

/-- The issue of a field. -/
structure FieldIssue where
  field : Text
  issue : Issue
deriving DecidableEq

/-- Why data are no settings. -/
inductive SettingsFault where
  | notMapping (kind : Text)
  | keyNotText
  | invalid (issues : List FieldIssue)
deriving DecidableEq

namespace Settings

/-! ### Level names -/

/-- The upper case of a letter of level names; the dotless i and the long s have one in their range. -/
def upperLevelChar (c : Char) : Char :=
  if c = 'ı' then 'I' else if c = 'ſ' then 'S' else Text.upperChar c

/-- The upper case of a level name. -/
def upperLevel (name : Text) : Text :=
  name.map upperLevelChar

/-- The level of a name in any letter case. -/
def levelNamed? (name : Text) : Option Level :=
  [Level.debug, .info, .warning, .error, .critical].find? (·.name == upperLevel name)

/-! ### Checks of single fields -/

section

variable [Surroundings]

open Surroundings

/-- A field that may be null. -/
def optional {α : Type} (read : Datum → Except Issue α) : Datum → Except Issue (Option α)
  | .null => .ok none
  | d => (read d).map some

def readNullChar (d : Datum) : Except Issue Char := do
  match ← textOf d with
  | [c] => return c
  | s => throw (.rejected ("null_char must be a single character, got " ++ s.quoted))

def readFileEncoding (d : Datum) : Except Issue Text := do
  let name ← textOf d
  if name.contains '\x00' then throw (.rejected "embedded null character")
  if (encoding? name).isSome then return name
  throw (.rejected ("Unknown file encoding: " ++ name))

def readLogLevel (d : Datum) : Except Issue Level := do
  let name ← textOf d
  match levelNamed? name with
  | some level => return level
  | none => throw (.rejected ("Invalid log level: " ++ name))

/-! ### Reading -/

/-- The names of the fields in order. -/
def fieldNames : List Text :=
  ["null_char", "file_encoding", "random_seed", "read_int_default", "read_float_default",
    "debug_prefix", "log_level"]

/-- The value of a field among entries, or its default. -/
def field {α : Type} (entries : List (Text × Datum)) (name : Text)
    (read : Datum → Except Issue α) (default : α) : Except FieldIssue α :=
  match entries.lookup name with
  | none => .ok default
  | some d => (read d).mapError fun issue => ⟨name, issue⟩

/-- The issue of a field, if it has one. -/
def issues {α : Type} : Except FieldIssue α → List FieldIssue
  | .ok _ => []
  | .error issue => [issue]

/-- The issues of fields that are unknown. -/
def unknownFields (entries : List (Text × Datum)) : List FieldIssue :=
  (entries.filter fun (name, _) => !fieldNames.contains name).map fun (name, _) =>
    ⟨name, .unknownField⟩

/-- Settings from entries with different keys. -/
def ofEntries (entries : List (Text × Datum)) : Except SettingsFault Settings :=
  let default : Settings := {}
  let nullChar := field entries "null_char" readNullChar default.nullChar
  let fileEncoding := field entries "file_encoding" readFileEncoding default.fileEncoding
  let randomSeed := field entries "random_seed" (optional intOf) default.randomSeed
  let readInt := field entries "read_int_default" intOf default.readIntDefault
  let readDouble := field entries "read_float_default" doubleOf default.readDoubleDefault
  let debugPrefix := field entries "debug_prefix" textOf default.debugPrefix
  let logLevel := field entries "log_level" readLogLevel default.logLevel
  let found := issues nullChar ++ issues fileEncoding ++ issues randomSeed ++ issues readInt
    ++ issues readDouble ++ issues debugPrefix ++ issues logLevel ++ unknownFields entries
  match nullChar, fileEncoding, randomSeed, readInt, readDouble, debugPrefix, logLevel, found with
  | .ok c, .ok e, .ok s, .ok n, .ok x, .ok p, .ok l, [] => .ok ⟨c, e, s, n, x, p, l⟩
  | _, _, _, _, _, _, _, found => .error (.invalid found)

/-- Settings from data; no data at all give the defaults. -/
def ofDatum : Datum → Except SettingsFault Settings
  | .null => ofEntries []
  | .mapping entries =>
    match Datum.textEntries? entries with
    | some entries => ofEntries entries
    | none => .error .keyNotText
  | d => .error (.notMapping d.kind)

end

/-- Settings as a value: a mapping of the seven fields. -/
def toValue (s : Settings) : Value :=
  .mapping [("null_char", .text [s.nullChar]), ("file_encoding", .text s.fileEncoding),
    ("random_seed", s.randomSeed.elim .null .int), ("read_int_default", .int s.readIntDefault),
    ("read_float_default", .double s.readDoubleDefault), ("debug_prefix", .text s.debugPrefix),
    ("log_level", .text s.logLevel.name)]

end Settings

end Primitives
