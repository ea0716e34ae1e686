import Primitives.Text.Basic

/-!
# Headers of traced values

A traced value is written behind a header: a text that marks traces, a space, and the name of the value
if it has one. The mark and the name have styles of their own, which a terminal may show.

## Main definitions

* `StyledText`: texts in pieces with styles.
* `Trace.header`: the header of a traced value.
-/

namespace Primitives

/-- A text in pieces, each with the name of its style. -/
abbrev StyledText := List (Text × Text)

/-- The header of a traced value with a label, which may be empty. -/
def Trace.header (mark label : Text) : StyledText :=
  let name : StyledText := if label.isEmpty then [] else [(label ++ ": ", "cyan")]
  (mark, "bold magenta") :: (" ", "bold magenta") :: name

end Primitives
