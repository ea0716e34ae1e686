import Primitives.Text.Basic

/-!
# Text builders

A builder collects pieces of text and gives their concatenation. It keeps the pieces apart, the
latest one first, so that adding a piece does not copy what was collected before.

## Main definitions

* `Builder`: a collection of pieces.
* `Builder.toText`: the text collected so far.
-/

namespace Primitives

/-- The pieces collected so far, the latest one first. -/
structure Builder where
  pieces : List Text

namespace Builder

/-- A builder that starts with a text. -/
def ofText (s : Text) : Builder :=
  ⟨[s]⟩

def append (b : Builder) (s : Text) : Builder :=
  ⟨s :: b.pieces⟩

/-- Adds a text and a line terminator. -/
def appendLine (b : Builder) (s : Text) : Builder :=
  ⟨['\n'] :: s :: b.pieces⟩

def clear (_ : Builder) : Builder :=
  ⟨[]⟩

/-- The number of characters collected. -/
def length (b : Builder) : Nat :=
  b.pieces.foldr (fun s n => s.length + n) 0

/-- The text collected so far. -/
def toText (b : Builder) : Text :=
  b.pieces.reverse.flatten

end Builder

end Primitives
