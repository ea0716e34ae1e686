import Primitives.Library.Operation
import Primitives.Session.Output

/-!
# Console operations

The operations on the console that programs call by name.

## Main definitions

* `consoleOperations`: the operations.
-/

namespace Primitives

open Arguments

variable [Surroundings]

/-- An action with the empty value. -/
def withoutValue (action : Action Unit) : Action Value := do
  action
  return .null

/-- An operation that writes a value, if it is given one. -/
def writing (name : String) (stream : ConsoleStream) : Operation :=
  .acting name "" do
    return withoutValue (Action.writeValue stream (← withDefault none (some <$> value)) [])

/-- Traces a value and gives it back. -/
def traced (v : Value) (label : Text) : Action Value := do
  Action.traceValue v label
  return v

def consoleOperations : List Operation :=
  [writing "print" .output,
    .acting "println" "Write a value and a line terminator; no value writes a bare newline" do
      return withoutValue
        (Action.writeValue .output (← withDefault none (some <$> value)) ['\n']),
    writing "eprint" .diagnostics,
    .acting "eprintln" "" do
      return withoutValue
        (Action.writeValue .diagnostics (← withDefault none (some <$> value)) ['\n']),
    .acting "format" "Render a printf-style template

        Raises:
            FormatError: If the arguments do not match the placeholders" do
      return Value.text <$> Action.formatText (← text) (← rest),
    .acting "printf"
        "Format and write without a line terminator; nothing is written on error" do
      return withoutValue (Action.writeFormatted (← text) (← rest)),
    .acting "readln" "Read one line without its terminator; end of stream gives ''" do
      return Value.text <$> Action.readLine,
    .acting "readInt" "Read the next token as an integer" do
      return Action.readInt (← nullable value),
    .acting "readFloat" "Read the next token as a float" do
      return Action.readDouble (← nullable value),
    .acting "dbg" "Trace a value on the diagnostic stream and return it unchanged

        Args:
            value: Value to trace
            label: Optional name printed before the value

        Returns:
            value, so the call can wrap any expression" do
      return traced (← value) ((← nullable text).getD [])]

end Primitives
