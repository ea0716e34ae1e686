import Primitives.Yaml.Reading

/-!
# The grammar of documents

A node is an alias, or a scalar or a collection behind its anchor and its tag. Collections are blocks or
stand between brackets. A node may be left out where the tokens show that it is empty. A document stands
alone, behind directives if it has any.

## Main definitions

* `Yaml.Reads.node`: a node.
* `Yaml.Reads.document?`: the node of the only document.
* `Yaml.Node.ofTokens?`: the same for a list of tokens.
-/

namespace Primitives.Yaml

namespace Reads

/-! ### Collections -/

/-- A node, empty if a token of a list stands in its place. -/
def orEmpty (ends : List Token) (node : Reads Node) : Reads Node := do
  if (← peek) ∈ ends then return .empty else node

/-- The next item of a block sequence. -/
def blockItem? (node : Reads Node) : Reads (Option Node) := do
  match ← take with
  | .blockEntry => some <$> orEmpty [.blockEntry, .blockEnd] node
  | .blockEnd => return none
  | _ => throw .malformed

/-- The next item of a block sequence that is not indented against the mapping around it. -/
def bareItem? (node : Reads Node) : Reads (Option Node) := do
  if ← skips .blockEntry then
    some <$> orEmpty [.blockEntry, .key, .value, .blockEnd] node
  else return none

/-- The rest of an entry behind the mark of its key. The tokens of the list end a node. -/
def markedEntry (ends : List Token) (node : Reads Node) : Reads (Node × Node) := do
  let key ← orEmpty (.value :: ends) node
  if ← skips .value then return (key, ← orEmpty ends node) else return (key, .empty)

/-- The next entry of a block mapping. -/
def blockPair? (node : Reads Node) : Reads (Option (Node × Node)) := do
  match ← take with
  | .key => some <$> markedEntry [.key, .value, .blockEnd] node
  | .blockEnd => return none
  | _ => throw .malformed

/-- The next element between brackets, with the comma in front of it unless it is the first one. -/
def flowElement? {α : Type} (close : Token) (element : Reads α) (isFirst : Bool) :
    Reads (Option α) := do
  if ← skips close then return none
  if !isFirst then
    if !(← skips .flowEntry) then throw .malformed
    if ← skips close then return none
  some <$> element

/-- The elements between brackets. -/
def flowElements {α : Type} (close : Token) (element : Reads α) : Reads (List α) := do
  match ← flowElement? close element true with
  | none => return []
  | some x => return x :: (← collect (flowElement? close element false))

/-- An item between square brackets, which may be the only entry of a mapping. -/
def flowItem (node : Reads Node) : Reads Node := do
  if ← skips .key then
    return .ofEntries .mapping [← markedEntry [.flowEntry, .flowSequenceEnd] node]
  else node

/-- An entry between braces, which may lack its value. -/
def flowPair (node : Reads Node) : Reads (Node × Node) := do
  if ← skips .key then markedEntry [.flowEntry, .flowMappingEnd] node
  else return (← node, .empty)

/-! ### Nodes -/

/-- Where a node stands: between brackets, in a block, or in an entry of a block mapping. -/
inductive Place where
  | flow
  | block
  | entry
deriving DecidableEq

/-- A sequence of items. -/
def sequence (anchor tag : Option Text) (items : Reads (List Node)) : Reads Node :=
  let tag := collectionTag .sequence tag
  enclosed anchor tag do return .sequence tag (← items)

/-- A mapping of entries. -/
def mapping (anchor tag : Option Text) (entries : Reads (List (Node × Node))) : Reads Node :=
  let tag := collectionTag .mapping tag
  enclosed anchor tag do return .ofEntries tag (← entries)

/-- A scalar. -/
def scalar (anchor tag : Option Text) (isPlain : Bool) (content : Text) : Reads Node := do
  let n := Node.scalar (scalarTag tag isPlain content) content
  name anchor n
  return n

/-- What stands behind the anchor and the tag of a node; nothing does if the node is empty. -/
def content (node : Place → Reads Node) (place : Place) (anchor tag : Option Text) :
    Reads Node := do
  match ← peek, place with
  | .blockEntry, .entry => sequence anchor tag (collect (bareItem? (node .block)))
  | .scalar content isPlain, _ =>
    skip
    scalar anchor tag isPlain content
  | .flowSequenceStart, _ =>
    skip
    sequence anchor tag (flowElements .flowSequenceEnd (flowItem (node .flow)))
  | .flowMappingStart, _ =>
    skip
    mapping anchor tag (flowElements .flowMappingEnd (flowPair (node .flow)))
  | .blockSequenceStart, .block | .blockSequenceStart, .entry =>
    skip
    sequence anchor tag (collect (blockItem? (node .block)))
  | .blockMappingStart, .block | .blockMappingStart, .entry =>
    skip
    mapping anchor tag (collect (blockPair? (node .entry)))
  | _, _ => if anchor.isNone && tag.isNone then throw .malformed else scalar anchor tag true []

/-- A node with nodes inside of it down to a depth. -/
def node : (depth : Nat) → Place → Reads Node
  | 0, _ => throw .tooDeep
  | depth + 1, place => do
    match ← peek with
    | .alias name =>
      skip
      aliased name
    | _ =>
      let (anchor, tag) ← properties
      content (node depth) place anchor tag

/-! ### Documents -/

/-- What the abbreviations of tags stand for by default. -/
def defaultAbbreviations : List (Text × Text) :=
  [(['!'], ['!']), (['!', '!'], tagStem)]

/-- Takes a directive in front of a document into account. The version must be given once at most and be
the first one, and an abbreviation must be a new one. -/
def direct (hasVersion : Bool) (given : List (Text × Text)) :
    Directive → Except DocumentFault (Bool × List (Text × Text))
  | .version major => if hasVersion || major != 1 then .error .malformed else .ok (true, given)
  | .abbreviation handle stem =>
    if (given.lookup handle).isSome then .error .malformed
    else .ok (hasVersion, (handle, stem) :: given)
  | .ignored => .ok (hasVersion, given)

/-- The next directive, if there is one. -/
def directive? : Reads (Option Directive) := do
  match ← peek with
  | .directive d =>
    skip
    return some d
  | _ => return none

/-- The directives in front of a document and the mark of its beginning. -/
def preamble : Reads Unit := do
  let directives ← collect directive?
  let (_, given) ← directives.foldlM (fun state d => direct state.1 state.2 d) (false, [])
  modify fun reading => { reading with abbreviations := given ++ defaultAbbreviations }
  if !(← skips .documentStart) then throw .malformed

/-- The node of a document behind the mark of its beginning, with nodes down to a depth. -/
def markedDocument (depth : Nat) : Reads Node := do
  match ← peek with
  | .directive _ | .documentStart | .documentEnd | .streamEnd => return .empty
  | _ => node depth .block

/-- Skips the marks of the end of a document, behind which nothing may follow. -/
def finish : Reads Unit := do
  let _ ← collect do return if ← skips .documentEnd then some () else none
  if (← peek) ≠ .streamEnd then throw .malformed

/-- The node of the only document, with nodes down to a depth, none if there is no document. -/
def document? (depth : Nat) : Reads (Option Node) := do
  match ← peek with
  | .streamEnd => return none
  | .directive _ | .documentStart =>
    preamble
    let n ← markedDocument depth
    finish
    return some n
  | _ =>
    let n ← node depth .block
    finish
    return some n

end Reads

/-- The node of the only document that tokens stand for, with nodes down to a depth, none if there is no
document. If the tokens end early, the reason is a fault. -/
def Node.ofTokens? (depth : Nat) (ahead : List Token) (fault : Option DocumentFault) :
    Except DocumentFault (Option Node) :=
  ((Reads.document? depth).run ⟨ahead, fault.getD .malformed, Reads.defaultAbbreviations, []⟩).map (·.1)

end Primitives.Yaml
