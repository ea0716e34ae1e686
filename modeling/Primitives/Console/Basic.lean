import Primitives.Console.Reader
import Primitives.Format.Rendering
import Primitives.Surroundings

/-!
# Consoles

A console has an input, an output and a stream for diagnostics. Values are written by their canonical
text; a value without one writes nothing, apart from the header of a traced value.

## Main definitions

* `Console`: consoles.
* `Console.write`, `Console.writeValue`: output to one of the streams.
* `Console.trace`: a value with a header on the diagnostic stream.
-/

namespace Primitives

/-- An input and what was written to the two output streams. -/
structure Console where
  reader : Reader
  output : Text
  diagnostics : Text

/-- One of the two streams that a console writes to. -/
inductive ConsoleStream where
  | output
  | diagnostics
deriving DecidableEq

namespace Console

/-- A console with an input and nothing written. -/
def ofInput (input : Text) : Console :=
  ⟨.ofText input, [], []⟩

/-- Writes a text to a stream. -/
def write (console : Console) (stream : ConsoleStream) (s : Text) : Console :=
  match stream with
  | .output => { console with output := console.output ++ s }
  | .diagnostics => { console with diagnostics := console.diagnostics ++ s }

/-- Writes the canonical text of a value and a terminator. -/
def writeValue (console : Console) (stream : ConsoleStream) (v : Value) (terminator : Text) :
    Except NumeralFault Unit × Console :=
  match v.render with
  | .ok s => (.ok (), console.write stream (s ++ terminator))
  | .error fault => (.error fault, console)

/-- Writes a header, as a terminal shows it, and then a value on the diagnostic stream. -/
def trace [Surroundings] (console : Console) (mark label : Text) (v : Value) :
    Except NumeralFault Unit × Console :=
  let header := Surroundings.terminal (Trace.header mark label)
  (console.write .diagnostics header).writeValue .diagnostics v ['\n']

end Console

end Primitives
