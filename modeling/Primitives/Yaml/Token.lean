import Primitives.Yaml.Property

/-!
# Tokens of documents

A document is read into tokens. Outside of brackets the structure follows from indentation: a token that
stands further to the right than the collection around it opens a new one, and one further to the left
closes those that it leaves. A key without a mark of its own is recognized late, when the colon behind it
is met: it must lie on one line, within 1024 characters, at a place where a key may begin. The mark of
the key, and the beginning of the mapping if it is the first key, are then put in front of it.

## Main definitions

* `Yaml.Token`: tokens.
* `Yaml.Lexer`: the state of reading.
* `Yaml.Lexer.next`: reads the next token.
* `Yaml.tokens`: the tokens of a document, and the fault that ends them if there is one.
-/

namespace Primitives.Yaml

/-- A token. A scalar tells whether it is plain. -/
inductive Token where
  | streamEnd
  | directive (d : Directive)
  | documentStart
  | documentEnd
  | blockSequenceStart
  | blockMappingStart
  | blockEnd
  | flowSequenceStart
  | flowSequenceEnd
  | flowMappingStart
  | flowMappingEnd
  | flowEntry
  | blockEntry
  | key
  | value
  | alias (name : Text)
  | anchor (name : Text)
  | tag (written : WrittenTag)
  | scalar (content : Text) (isPlain : Bool)
deriving DecidableEq

/-- A token that may turn out to be a key: its number, its place, and whether it has to be one. -/
structure PossibleKey where
  number : Nat
  required : Bool
  index : Nat
  line : Nat
  column : Nat

/-- The state of reading: the cursor, the depth of brackets, the tokens read so far with the last one
first, the column of the innermost block with those around it, whether a key may begin, and the possible
keys by depth. -/
structure Lexer where
  cursor : Cursor
  depth : Nat
  read : List Token
  indent : Int
  outer : List Int
  keyAllowed : Bool
  keys : List (Nat × PossibleKey)
  finished : Bool

namespace Lexer

/-- A reader at the start of a document. -/
def start (document : Text) : Lexer :=
  ⟨.start document, 0, [], -1, [], true, [], false⟩

/-- Whether the reader is inside of brackets. -/
def inFlow (l : Lexer) : Bool :=
  l.depth != 0

/-- Adds a token. -/
def emit (l : Lexer) (token : Token) : Lexer :=
  { l with read := token :: l.read }

/-- Adds a token in front of the one with a number. -/
def insert (l : Lexer) (number : Nat) (token : Token) : Lexer :=
  let later := l.read.length - number
  { l with read := l.read.take later ++ token :: l.read.drop later }

/-- Adds a token of several characters. -/
def consume (l : Lexer) (token : Token) (length : Nat) : Lexer :=
  { l.emit token with cursor := l.cursor.skip length }

/-! ### Between tokens -/

/-- Skips spaces, comments and line ends; a key may begin on a new line outside of brackets. -/
def skipGaps (inFlow : Bool) : (fuel : Nat) → Cursor → (keyAllowed : Bool) → Cursor × Bool
  | 0, c, keyAllowed => (c, keyAllowed)
  | fuel + 1, c, keyAllowed =>
    let c := c.skipSpaces.skipComment
    match c.lineBreak with
    | ([], c) => (c, keyAllowed)
    | (_, c) => skipGaps inFlow fuel c (keyAllowed || !inFlow)

/-- The reader at the next token. -/
def toNextToken (l : Lexer) : Lexer :=
  let c := if l.cursor.index = 0 && l.cursor.peek = '\uFEFF' then l.cursor.forward else l.cursor
  let (cursor, keyAllowed) := skipGaps l.inFlow (c.rest.length + 1) c l.keyAllowed
  { l with cursor, keyAllowed }

/-! ### Keys -/

/-- The greatest distance between a key and its colon. -/
def keyLimit : Nat := 1024

/-- Whether a possible key can no longer be one. -/
def isStale (l : Lexer) (key : PossibleKey) : Bool :=
  key.line != l.cursor.line || decide (keyLimit < l.cursor.index - key.index)

/-- Forgets possible keys that can no longer be keys. -/
def dropStale (l : Lexer) : Except DocumentFault Lexer :=
  if l.keys.any fun (_, key) => l.isStale key && key.required then .error .malformed
  else .ok { l with keys := l.keys.filter fun (_, key) => !l.isStale key }

/-- The possible key at the present depth. -/
def possibleKey? (l : Lexer) : Option PossibleKey :=
  l.keys.lookup l.depth

/-- Forgets the possible key at the present depth. -/
def forgetKey (l : Lexer) : Lexer :=
  { l with keys := l.keys.filter fun (depth, _) => depth != l.depth }

/-- Gives up the possible key at the present depth. -/
def dropKey (l : Lexer) : Except DocumentFault Lexer :=
  if l.possibleKey?.any PossibleKey.required then .error .malformed else .ok l.forgetKey

/-- Notes that the next token may be a key, if one may begin here. -/
def noteKey (l : Lexer) : Except DocumentFault Lexer :=
  if !l.keyAllowed then .ok l
  else do
    let l ← l.dropKey
    let c := l.cursor
    let required := !l.inFlow && decide (l.indent = c.column)
    return { l with
      keys := (l.depth, ⟨l.read.length, required, c.index, c.line, c.column⟩) :: l.keys }

/-- The reader with keys allowed or not. -/
def allowKey (l : Lexer) (keyAllowed : Bool) : Lexer :=
  { l with keyAllowed }

/-! ### Indentation -/

/-- Closes the blocks that stand further to the right than a column. -/
def closeBlocksFrom (column indent : Int) (read : List Token) :
    List Int → Int × List Int × List Token
  | [] => (indent, [], read)
  | around :: outer =>
    if column < indent then closeBlocksFrom column around (.blockEnd :: read) outer
    else (indent, around :: outer, read)

/-- Closes the blocks that the reader leaves at a column. Brackets keep blocks open. -/
def closeBlocks (l : Lexer) (column : Int) : Lexer :=
  if l.inFlow then l
  else
    let (indent, outer, read) := closeBlocksFrom column l.indent l.read l.outer
    { l with indent, outer, read }

/-- Whether a collection at a column is a new block. -/
def opensBlock (l : Lexer) (column : Nat) : Bool :=
  !l.inFlow && decide (l.indent < column)

/-- The reader inside a new block at a column. -/
def openBlock (l : Lexer) (column : Nat) : Lexer :=
  { l with indent := column, outer := l.indent :: l.outer }

/-- Opens a block at the cursor with a token, if it is a new one. -/
def beginBlock (l : Lexer) (token : Token) : Lexer :=
  if l.opensBlock l.cursor.column then (l.openBlock l.cursor.column).emit token else l

/-! ### Kinds of tokens -/

/-- The end of the document text. -/
def fetchStreamEnd (l : Lexer) : Except DocumentFault Lexer := do
  let l ← (l.closeBlocks (-1)).dropKey
  return { (l.allowKey false).emit .streamEnd with keys := [], finished := true }

/-- A token that stands outside of all collections. -/
def fetchOutside (l : Lexer) : Except DocumentFault Lexer := do
  return (← (l.closeBlocks (-1)).dropKey).allowKey false

/-- A directive. -/
def fetchDirective (l : Lexer) : Except DocumentFault Lexer := do
  let l ← l.fetchOutside
  let (d, cursor) ← Property.directive l.cursor
  return { l.emit (.directive d) with cursor }

/-- A mark between documents. -/
def fetchMarker (l : Lexer) (token : Token) : Except DocumentFault Lexer := do
  return (← l.fetchOutside).consume token 3

/-- An opening bracket, which may begin a key. -/
def fetchOpening (l : Lexer) (token : Token) : Except DocumentFault Lexer := do
  let l ← l.noteKey
  return ({ l with depth := l.depth + 1 }.allowKey true).consume token 1

/-- A closing bracket. -/
def fetchClosing (l : Lexer) (token : Token) : Except DocumentFault Lexer := do
  let l ← l.dropKey
  return ({ l with depth := l.depth - 1 }.allowKey false).consume token 1

/-- A comma between brackets. -/
def fetchFlowEntry (l : Lexer) : Except DocumentFault Lexer := do
  return ((← l.dropKey).allowKey true).consume .flowEntry 1

/-- The mark of an entry of a sequence. -/
def fetchBlockEntry (l : Lexer) : Except DocumentFault Lexer := do
  if !l.inFlow && !l.keyAllowed then throw .malformed
  let l ← ((l.beginBlock .blockSequenceStart).allowKey true).dropKey
  return l.consume .blockEntry 1

/-- The mark of a key. -/
def fetchKey (l : Lexer) : Except DocumentFault Lexer := do
  if !l.inFlow && !l.keyAllowed then throw .malformed
  let l ← ((l.beginBlock .blockMappingStart).allowKey !l.inFlow).dropKey
  return l.consume .key 1

/-- A colon. A possible key in front of it becomes a key. -/
def fetchValue (l : Lexer) : Except DocumentFault Lexer := do
  match l.possibleKey? with
  | some key =>
    let l := (l.forgetKey.insert key.number .key).allowKey false
    let l :=
      if l.opensBlock key.column then
        (l.openBlock key.column).insert key.number .blockMappingStart
      else l
    return l.consume .value 1
  | none =>
    if !l.inFlow && !l.keyAllowed then throw .malformed
    let l ← ((l.beginBlock .blockMappingStart).allowKey !l.inFlow).dropKey
    return l.consume .value 1

/-- A token that may begin a key, read from the cursor. -/
def fetchContent (l : Lexer) (read : Cursor → Except DocumentFault (Token × Cursor)) :
    Except DocumentFault Lexer := do
  let l ← l.noteKey
  let (token, cursor) ← read l.cursor
  return { (l.allowKey false).emit token with cursor }

/-- A literal or folded block. -/
def fetchBlock (l : Lexer) (fold : Bool) : Except DocumentFault Lexer := do
  let l ← (l.allowKey true).dropKey
  let (content, cursor) ← Scalar.block fold l.indent l.cursor
  return { l.emit (.scalar content false) with cursor }

/-- A plain scalar; a key may begin behind it if it ends with a line. -/
def fetchPlain (l : Lexer) : Except DocumentFault Lexer := do
  let l ← l.noteKey
  let (content, lineEnded, cursor) := Scalar.plain l.inFlow (l.indent + 1) l.cursor
  return { (l.allowKey lineEnded).emit (.scalar content true) with cursor }

/-- Reads a scalar in quotes as a token. -/
def quotedToken (double : Bool) (c : Cursor) : Except DocumentFault (Token × Cursor) :=
  (Scalar.quoted double c).map fun (s, c) => (.scalar s false, c)

/-! ### Reading -/

/-- Whether a mark that a gap must follow outside of brackets stands at the cursor. -/
def isMark (l : Lexer) : Bool :=
  l.inFlow || isGap (l.cursor.peekAt 1)

/-- Whether a plain scalar begins at the cursor. -/
def beginsPlain (l : Lexer) : Bool :=
  let x := l.cursor.peek
  !(isGap x || "-?:,[]\x7b\x7d#&*!|>'\"%@`".toList.contains x)
    || (!isGap (l.cursor.peekAt 1) && (x == '-' || (!l.inFlow && (x == '?' || x == ':'))))

/-- Reads the token at the cursor. -/
def fetch (l : Lexer) : Except DocumentFault Lexer :=
  let c := l.cursor
  let x := c.peek
  if x = endMark then l.fetchStreamEnd
  else if x = '%' && c.column = 0 then l.fetchDirective
  else if c.column = 0 && c.isMarker '-' then l.fetchMarker .documentStart
  else if c.column = 0 && c.isMarker '.' then l.fetchMarker .documentEnd
  else if x = '[' then l.fetchOpening .flowSequenceStart
  else if x = '\x7b' then l.fetchOpening .flowMappingStart
  else if x = ']' then l.fetchClosing .flowSequenceEnd
  else if x = '\x7d' then l.fetchClosing .flowMappingEnd
  else if x = ',' then l.fetchFlowEntry
  else if x = '-' && isGap (c.peekAt 1) then l.fetchBlockEntry
  else if x = '?' && l.isMark then l.fetchKey
  else if x = ':' && l.isMark then l.fetchValue
  else if x = '*' then
    l.fetchContent fun c => (Property.anchor c).map fun (s, c) => (.alias s, c)
  else if x = '&' then
    l.fetchContent fun c => (Property.anchor c).map fun (s, c) => (.anchor s, c)
  else if x = '!' then
    l.fetchContent fun c => (Property.tag c).map fun (written, c) => (.tag written, c)
  else if x = '|' && !l.inFlow then l.fetchBlock false
  else if x = '>' && !l.inFlow then l.fetchBlock true
  else if x = '\'' then l.fetchContent (quotedToken false)
  else if x = '"' then l.fetchContent (quotedToken true)
  else if l.beginsPlain then l.fetchPlain
  else .error .malformed

/-- Reads the next token, with the ends of blocks in front of it. -/
def next (l : Lexer) : Except DocumentFault Lexer := do
  let l ← l.toNextToken.dropStale
  (l.closeBlocks l.cursor.column).fetch

/-- Reads tokens to the end or to a fault. -/
def readAll : (fuel : Nat) → Lexer → List Token × Option DocumentFault
  | 0, l => (l.read.reverse, none)
  | fuel + 1, l =>
    if l.finished then (l.read.reverse, none)
    else
      match l.next with
      | .ok l => readAll fuel l
      | .error fault => (l.read.reverse, some fault)

end Lexer

/-- The tokens of a document, and the fault that ends them if there is one. Every step reads a character
or the end. -/
def tokens (document : Text) : List Token × Option DocumentFault :=
  Lexer.readAll (document.length + 2) (.start document)

end Primitives.Yaml
