import Primitives.Console.Trace
import Primitives.Text.Cells

/-!
# A plain terminal

A terminal lays out styled texts before it shows them. The one here shows no styles, drops some control
characters and expands tabs, and no line is too long for it; a terminal of a given width may leave out
white space at the end of longer lines. It serves to run the primitives and to give examples.

## Main definitions

* `Terminal.shown`: what the terminal shows of a styled text.
-/

namespace Primitives.Terminal

/-- The control characters that are dropped: bell, backspace, vertical tab, form feed and carriage
return. -/
def isDropped (c : Char) : Bool :=
  c == '\x07' || c == '\x08' || c == '\x0b' || c == '\x0c' || c == '\x0d'

/-- What the terminal shows of a styled text. -/
def shown (s : StyledText) : Text :=
  Text.expandTabs ((s.flatMap Prod.fst).filter (!isDropped ·))

end Primitives.Terminal
