import Primitives.Yaml.Node
import Primitives.Yaml.Token

/-!
# Reading nodes

Nodes are read from the tokens of a document one after the other. On the way it is known which nodes have
names, so that an alias can be replaced, and what the abbreviations of tags stand for.

## Main definitions

* `Yaml.Reading`, `Yaml.Reads`: the state of reading and the steps on it.
* `Yaml.Reads.collect`: repeats a step.
* `Yaml.Reads.aliased`, `Yaml.Reads.name`: nodes with names.
* `Yaml.Reads.properties`: the anchor and the tag of a node.
-/

namespace Primitives.Yaml

/-- The state of reading nodes: the tokens ahead, the fault behind the last one, what the abbreviations
of tags stand for, and the nodes that have names. -/
structure Reading where
  ahead : List Token
  fault : DocumentFault
  abbreviations : List (Text × Text)
  named : List (Text × Node)

/-- A step of reading. -/
abbrev Reads (α : Type) := StateT Reading (Except DocumentFault) α

namespace Reads

/-- The next token. -/
def peek : Reads Token := do
  let reading ← get
  match reading.ahead with
  | token :: _ => return token
  | [] => throw reading.fault

/-- Leaves the next token behind. -/
def skip : Reads Unit :=
  modify fun reading => { reading with ahead := reading.ahead.drop 1 }

/-- The next token, which is left behind. -/
def take : Reads Token := do
  let token ← peek
  skip
  return token

/-- Leaves the next token behind if it is a certain one, and tells whether it is. -/
def skips (token : Token) : Reads Bool := do
  if (← peek) = token then
    skip
    return true
  else return false

/-- Collects elements until there is none. -/
def collectFrom {α : Type} (next? : Reads (Option α)) : (fuel : Nat) → Reads (List α)
  | 0 => return []
  | fuel + 1 => do
    match ← next? with
    | none => return []
    | some x => return x :: (← collectFrom next? fuel)

/-- Collects elements until there is none; each of them has a token at least. -/
def collect {α : Type} (next? : Reads (Option α)) : Reads (List α) := do
  collectFrom next? ((← get).ahead.length + 1)

/-! ### Names -/

/-- The node that an alias stands for. -/
def aliased (name : Text) : Reads Node := do
  match (← get).named.lookup name with
  | some n => return n
  | none => throw .malformed

/-- Gives a node its name, if it has one. -/
def name (anchor : Option Text) (n : Node) : Reads Unit :=
  match anchor with
  | some name => modify fun reading => { reading with named := (name, n) :: reading.named }
  | none => return

/-- Reads a collection, which encloses what is read. -/
def enclosed (anchor : Option Text) (tag : Tag) (read : Reads Node) : Reads Node := do
  name anchor (.enclosing tag)
  let n ← read
  name anchor n
  return n

/-! ### Anchors and tags -/

/-- An anchor, if there is one; its name must be a new one. -/
def anchor? : Reads (Option Text) := do
  match ← peek with
  | .anchor name =>
    skip
    return some name
  | _ => return none

/-- A tag with its abbreviation written out, if there is one. -/
def tag? : Reads (Option Text) := do
  match ← peek with
  | .tag ⟨none, suffix⟩ =>
    skip
    return some suffix
  | .tag ⟨some handle, suffix⟩ =>
    skip
    match (← get).abbreviations.lookup handle with
    | some stem => return some (stem ++ suffix)
    | none => throw .malformed
  | _ => return none

/-- The anchor and the tag of a node, in any order. -/
def properties : Reads (Option Text × Option Text) := do
  let (anchor, tag) ←
    match ← anchor? with
    | some name => pure (some name, ← tag?)
    | none => do
      let tag ← tag?
      pure (← if tag.isSome then anchor? else pure none, tag)
  let named := (← get).named
  if anchor.any fun name => (named.lookup name).isSome then throw .malformed
  return (anchor, tag)

/-- The tag that leaves the kind of a node open. -/
def openTag : Text := ['!']

/-- The tag of a scalar. -/
def scalarTag (tag : Option Text) (isPlain : Bool) (content : Text) : Tag :=
  match tag with
  | none => if isPlain then .ofPlain content else .text
  | some tag => if tag = openTag then .ofPlain content else .ofName tag

/-- The tag of a collection. -/
def collectionTag (usual : Tag) (tag : Option Text) : Tag :=
  match tag with
  | none => usual
  | some tag => if tag = openTag then usual else .ofName tag

end Reads

end Primitives.Yaml
