import Primitives.Codec.StandardCharset
import Primitives.Console.Terminal
import Primitives.Settings.Field
import Primitives.Surroundings
import Primitives.Yaml.Document

/-!
# Standard surroundings

The surroundings in which the primitives run here and in which examples are given: a small registry of
encodings, a loader of documents, lax conversions and a plain terminal. They follow what programs find
outside as far as that is written down here. Statements about the primitives do not rest on them, apart
from those about given inputs.

## Main definitions

* `Surroundings.standard`: the standard surroundings.
-/

namespace Primitives

/-- The depth of nodes that a loader reaches which makes two nested calls for each of them, where a
thousand nested calls are allowed and twenty of them are needed to begin with. -/
def Yaml.depthLimit : Nat := 490

/-- The standard surroundings. The memory is that of a machine with less than a tebibyte. -/
instance Surroundings.standard : Surroundings where
  encoding? := Encoding.standard?
  textOf := Field.text
  intOf := Field.int
  doubleOf := Field.double
  load := Yaml.loadBytes Yaml.depthLimit
  terminal := Terminal.shown
  memoryLimit := 2 ^ 40

end Primitives
