import Primitives.Codec.Charset
import Primitives.Console.Trace
import Primitives.Datum
import Primitives.Settings.Issue
import Primitives.Yaml.Fault

/-!
# Surroundings

The primitives leave some work to others: the host registers encodings under names, a loader makes data
of documents, conversions make texts and numbers of the data that are given for settings, and a terminal
shows the header of a traced value. None of it is fixed here. What is proved of the primitives holds in
all surroundings, or in those that have a property which the statement names.

Encodings of the registry turn texts into bytes and back or are not for texts. The loader is given all
bytes of a file; how it goes through them, and which of several faults it meets first, is up to it.

## Main definitions

* `Surroundings`: what the primitives take from elsewhere.
* `Surroundings.ReadsBack`: conversions that leave data of the right kind as they are.
* `Surroundings.ShowsSpaces`: a terminal that shows spaces.
-/

namespace Primitives

/-- What the primitives take from elsewhere. -/
class Surroundings where
  /-- The encoding that is registered under a name. -/
  encoding? : Text → Option Encoding
  /-- The datum of a field as a text, an integer or a double. -/
  textOf : Datum → Except Issue Text
  intOf : Datum → Except Issue Int
  doubleOf : Datum → Except Issue Double
  /-- The datum of the only document of a file with the given bytes. -/
  load : Bytes → Except LoadFault Datum
  /-- What a terminal shows of a styled text. -/
  terminal : StyledText → Text
  /-- The length from which on texts find no memory. -/
  memoryLimit : Nat

/-- Texts, integers and doubles that are given for fields of their kind are taken as they are. -/
structure Surroundings.ReadsBack [Surroundings] : Prop where
  text : ∀ s, textOf (.text s) = .ok s
  int : ∀ n, intOf (.int n) = .ok n
  double : ∀ x, doubleOf (.double x) = .ok x

/-- A text with a space in it is not shown as nothing. -/
def Surroundings.ShowsSpaces [Surroundings] : Prop :=
  ∀ s : StyledText, (∃ piece ∈ s, ' ' ∈ piece.1) → terminal s ≠ []

end Primitives
