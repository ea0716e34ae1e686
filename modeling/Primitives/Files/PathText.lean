import Primitives.Text.Parts

/-!
# Path texts

A path text names a file by components between slashes. The operations of this file work on the text
alone: they join paths, take a path apart and remove `.` and `..` by their letters, without looking at
any file.

## Main definitions

* `PathText.join`: a path continued by further ones, where an absolute one starts over.
* `PathText.baseName`, `PathText.dirName`: the parts behind and before the last slash.
* `PathText.splitExtension`: a path without its extension, and the extension.
* `PathText.normalize`: the path with `.`, `..` and repeated slashes removed.
-/

namespace Primitives.PathText

/-- Whether a path starts with a slash. -/
def isAbsolute (p : Text) : Bool :=
  p.head? == some '/'

/-- The two parts of a text around its last slash; the slash belongs to the first part. -/
def splitLast (p : Text) : Text × Text :=
  let name := (p.reverse.takeWhile (· != '/')).reverse
  (p.take (p.length - name.length), name)

def withoutTrailingSlashes (p : Text) : Text :=
  (p.reverse.dropWhile (· == '/')).reverse

/-! ### Composition -/

/-- A path continued by another one. -/
def joinTwo (p q : Text) : Text :=
  if isAbsolute q then q
  else if p.isEmpty || p.getLast? == some '/' then p ++ q
  else p ++ '/' :: q

/-- A path continued by others in turn. -/
def join (first : Text) (rest : List Text) : Text :=
  rest.foldl joinTwo first

/-! ### Decomposition -/

/-- The part behind the last slash. -/
def baseName (p : Text) : Text :=
  (splitLast p).2

/-- The part before the last slash without the slashes at its end, unless it holds nothing else. -/
def dirName (p : Text) : Text :=
  let head := (splitLast p).1
  if head.all (· == '/') then head else withoutTrailingSlashes head

/-- The extension: from the last dot of the last component on, if another character than a dot stands
before it there. -/
def splitExtension (p : Text) : Text × Text :=
  let name := baseName p
  let tail := (name.reverse.takeWhile (· != '.')).reverse
  let stem := name.take (name.length - tail.length - 1)
  if tail.length < name.length && stem.any (· != '.') then
    let length := p.length - tail.length - 1
    (p.take length, p.drop length)
  else (p, [])

/-! ### Normal form -/

/-- The number of slashes that a normal path starts with: two exactly for two, else one. -/
def leadingSlashes (p : Text) : Nat :=
  let count := (p.takeWhile (· == '/')).length
  if count = 2 then 2 else min count 1

/-- Adds a component to components in reverse order: `..` removes the one before it. -/
def pushComponent (absolute : Bool) (stack : List Text) (component : Text) : List Text :=
  if component = [] ∨ component = ['.'] then stack
  else if component = ['.', '.'] then
    match stack with
    | [] => if absolute then [] else [component]
    | top :: rest => if top = ['.', '.'] then component :: stack else rest
  else component :: stack

/-- The path with the same letters apart from `.`, `..` and repeated slashes. -/
def normalize (p : Text) : Text :=
  let slashes := leadingSlashes p
  let components := (p.split ['/']).foldl (pushComponent (slashes != 0)) []
  let body := List.replicate slashes '/' ++ Text.join components.reverse ['/']
  if body.isEmpty then ['.'] else body

/-- The normal form of a path continued from a directory. -/
def absolute (directory p : Text) : Text :=
  normalize (joinTwo directory p)

end Primitives.PathText
