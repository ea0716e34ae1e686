import Primitives.Session.Settings

/-!
# Console and templates of a session

Values and formatted texts are written to the two output streams of the console, and lines and numbers
are read from its input. A number that is missing or malformed becomes the default of the caller, or
the one of the settings, which are looked up before anything is read.

## Main definitions

* `Action.formatText`: a template text rendered with arguments.
* `Action.writeValue`, `Action.writeFormatted`, `Action.traceValue`: output.
* `Action.readLine`, `Action.readInt`, `Action.readDouble`: input.
-/

namespace Primitives.Action

variable [Surroundings]

/-! ### Templates -/

/-- The template of a text; texts that are not kept are reported. -/
def template (source : Text) : Action Template := do
  let session ← get
  if (session.templates.find? source).isNone then
    report "KaedeRT.format" .debug ("Compiling format template " ++ source.quoted)
  let (result, templates) := session.templates.request source
  modify fun session => { session with templates }
  ofExcept (fun fault => .format (.template fault source)) result

/-- A template text rendered with arguments. -/
def formatText (source : Text) (args : List Value) : Action Text := do
  ofExcept .format ((← template source).render args)

/-! ### Output -/

/-- Writes the canonical text of a value and a terminator, or only the terminator without a value. -/
def writeValue (stream : ConsoleStream) (v : Option Value) (terminator : Text) : Action Unit := do
  match v with
  | none => onConsole fun console => ((), console.write stream terminator)
  | some v => ofExcept .numeral (← onConsole (·.writeValue stream v terminator))

/-- Writes a formatted text to the output. -/
def writeFormatted (source : Text) (args : List Value) : Action Unit := do
  let s ← formatText source args
  onConsole fun console => ((), console.write .output s)

/-- Writes a value behind the mark of traced values and its label. -/
def traceValue (v : Value) (label : Text) : Action Unit := do
  let mark := (← settings).debugPrefix
  ofExcept .numeral (← onConsole (·.trace mark label v))

/-! ### Input -/

/-- A step of the reader of the console. -/
def onReader {α : Type} (step : Reader → α × Reader) : Action α :=
  onConsole fun console =>
    let (a, reader) := step console.reader
    (a, { console with reader })

def readLine : Action Text :=
  onReader Reader.readLine

/-- The value of a reading, or a default that is reported. -/
def readingOr {α : Type} (name : Text) (toValue : α → Value) (default : Value) :
    Reader.Reading α → Action Value
  | .value a => return toValue a
  | .endOfInput => do
    report "KaedeRT.console" .debug (name ++ ": end of input")
    return default
  | .malformed token => do
    report "KaedeRT.console" .debug (name ++ ": malformed token " ++ token.quoted)
    return default

/-- The next token as an integer. -/
def readInt (default : Option Value) : Action Value := do
  let default ← match default with
    | some v => pure v
    | none => pure (.int (← settings).readIntDefault)
  readingOr "read_int" .int default (← onReader Reader.readInt)

/-- The next token as a double. -/
def readDouble (default : Option Value) : Action Value := do
  let default ← match default with
    | some v => pure v
    | none => pure (.double (← settings).readDoubleDefault)
  let reading ← ofExcept .misspelledDouble (← onReader Reader.readDouble)
  readingOr "read_float" .double default reading

end Primitives.Action
