import Primitives.Yaml.Cursor
import Primitives.Yaml.Fault

/-!
# Scalars in documents

A scalar is plain, quoted or a block. Line breaks inside of plain and quoted scalars fold: a single one
is a space, and of several the first one is dropped. A literal block keeps its line breaks, and a folded
one folds those between lines that do not begin with a space or a tab.

## Main definitions

* `Yaml.Scalar.plain`: a plain scalar.
* `Yaml.Scalar.quoted`: a scalar in single or double quotes.
* `Yaml.Scalar.block`: a literal or folded block.
-/

namespace Primitives.Yaml.Scalar

/-- The text that a line break and those behind it fold into. -/
def folded (lineBreak breaks : Text) : Text :=
  if lineBreak != ['\n'] then lineBreak ++ breaks
  else if breaks.isEmpty then [' ']
  else breaks

/-! ### Plain scalars -/

/-- Whether a plain scalar ends at a character, given the one behind it. -/
def endsPlain (inFlow : Bool) (c next : Char) : Bool :=
  isGap c || (c == ':' && (isGap next || (inFlow && ",[]\x7b\x7d".toList.contains next)))
    || (inFlow && ",?[]\x7b\x7d".toList.contains c)

/-- The characters of a plain scalar at the beginning of a text. -/
def plainRun (inFlow : Bool) : Text → Text
  | [] => []
  | c :: s => if endsPlain inFlow c (s.headD endMark) then [] else c :: plainRun inFlow s

/-- The line breaks behind a first one in a plain scalar, with the spaces between them left out; none
when they lead to a separator of documents. -/
def plainBreaks : (fuel : Nat) → Cursor → Text → Option Text × Cursor
  | 0, c, breaks => (some breaks, c)
  | fuel + 1, c, breaks =>
    if c.isSeparator && c.column == 0 then (none, c)
    else
      let c := c.skipSpaces
      match c.lineBreak with
      | ([], c) => (some breaks, c)
      | (lineBreak, c) => plainBreaks fuel c (breaks ++ lineBreak)

/-- What lies between two runs of a plain scalar: the text that it counts for, which is empty at the end
of the scalar, whether a line has ended, and the cursor behind it. -/
def plainGap (c : Cursor) : Text × Bool × Cursor :=
  let (spaces, c) := c.takeWhile (· == ' ')
  match c.lineBreak with
  | ([], c) => (spaces, false, c)
  | (lineBreak, c) =>
    match plainBreaks (c.rest.length + 1) c [] with
    | (none, c) => ([], true, c)
    | (some breaks, c) => (folded lineBreak breaks, true, c)

/-- Reads runs and gaps of a plain scalar whose further lines have at least the given column. The result
tells the text, whether a line has ended behind it, and the cursor. -/
def plainFrom (inFlow : Bool) (least : Int) :
    (fuel : Nat) → Cursor → (content gap : Text) → (lineEnded : Bool) → Text × Bool × Cursor
  | 0, c, content, _, lineEnded => (content, lineEnded, c)
  | fuel + 1, c, content, gap, lineEnded =>
    let run := if c.peek = '#' then [] else plainRun inFlow c.rest
    if run.isEmpty then (content, lineEnded, c)
    else
      let content := content ++ gap ++ run
      let (gap, lineEnded, c) := plainGap (c.skip run.length)
      if gap.isEmpty || c.peek == '#' || (!inFlow && decide ((c.column : Int) < least)) then
        (content, lineEnded, c)
      else plainFrom inFlow least fuel c content gap lineEnded

/-- A plain scalar: its text, whether a line has ended behind it, and the cursor. -/
def plain (inFlow : Bool) (least : Int) (c : Cursor) : Text × Bool × Cursor :=
  plainFrom inFlow least (c.rest.length + 1) c [] [] false

/-! ### Quoted scalars -/

/-- The character that an escape letter stands for. -/
def escaped? (c : Char) : Option Char :=
  [('0', '\x00'), ('a', '\x07'), ('b', '\x08'), ('t', '\t'), ('\t', '\t'), ('n', '\n'),
    ('v', '\x0b'), ('f', '\x0c'), ('r', '\r'), ('e', '\x1b'), (' ', ' '), ('"', '"'),
    ('\\', '\\'), ('/', '/'), ('N', '\x85'), ('_', '\xa0'), ('L', '\u2028'),
    ('P', '\u2029')].lookup c

/-- The number of hexadecimal digits behind an escape letter. -/
def escapeLength? (c : Char) : Option Nat :=
  [('x', 2), ('u', 4), ('U', 8)].lookup c

/-- The character of a code point. A surrogate is none and is replaced by U+FFFD. -/
def character (n : Nat) : Except DocumentFault Char :=
  if 2 ^ 31 ≤ n then .error .characterOverflow
  else if 0x110000 ≤ n then .error .noCharacter
  else if n.isValidChar then .ok (Char.ofNat n)
  else .ok '\uFFFD'

/-- The line breaks at the cursor, with spaces and tabs in front of each left out. A separator of
documents is not allowed here. -/
def quotedBreaks : (fuel : Nat) → Cursor → Text → Except DocumentFault (Text × Cursor)
  | 0, c, breaks => .ok (breaks, c)
  | fuel + 1, c, breaks =>
    if c.isSeparator then .error .malformed
    else
      let c := c.skipWhile isSpaceOrTab
      match c.lineBreak with
      | ([], c) => .ok (breaks, c)
      | (lineBreak, c) => quotedBreaks fuel c (breaks ++ lineBreak)

/-- The text of an escape sequence, given the cursor behind its backslash. -/
def escape (c : Cursor) : Except DocumentFault (Text × Cursor) :=
  let letter := c.peek
  match escaped? letter, escapeLength? letter with
  | some x, _ => .ok ([x], c.forward)
  | none, some length => do
    let digits := c.forward.rest.take length
    if digits.length = length && digits.all isHexDigit then
      return ([← character (hexNumber digits)], c.forward.skip length)
    else throw .malformed
  | none, none =>
    if isBreak letter then quotedBreaks (c.rest.length + 1) c.lineBreak.2 [] else .error .malformed

/-- Spaces and line breaks inside of a quoted scalar. -/
def quotedGap (c : Cursor) : Except DocumentFault (Text × Cursor) :=
  let (spaces, c) := c.takeWhile isSpaceOrTab
  if c.peek = endMark then .error .malformed
  else
    match c.lineBreak with
    | ([], c) => .ok (spaces, c)
    | (lineBreak, c) => do
      let (breaks, c) ← quotedBreaks (c.rest.length + 1) c []
      return (folded lineBreak breaks, c)

/-- Reads a quoted scalar from behind its opening quote to behind the closing one. -/
def quotedFrom (double : Bool) :
    (fuel : Nat) → Cursor → Text → Except DocumentFault (Text × Cursor)
  | 0, _, _ => .error .malformed
  | fuel + 1, c, content =>
    let x := c.peek
    if isGap x then do
      let (gap, c) ← quotedGap c
      quotedFrom double fuel c (content ++ gap)
    else if double && x == '\\' then do
      let (s, c) ← escape c.forward
      quotedFrom double fuel c (content ++ s)
    else if x == (if double then '"' else '\'') then
      if !double && c.peekAt 1 == '\'' then quotedFrom double fuel (c.skip 2) (content ++ ['\''])
      else .ok (content, c.forward)
    else
      let inside := fun y => !isGap y && y != '\\' && y != '"' && y != '\''
      let (run, next) := c.takeWhile inside
      if run.isEmpty then quotedFrom double fuel c.forward (content ++ [x])
      else quotedFrom double fuel next (content ++ run)

/-- A scalar in quotes, given the cursor at the opening one. -/
def quoted (double : Bool) (c : Cursor) : Except DocumentFault (Text × Cursor) :=
  quotedFrom double (c.rest.length + 1) c.forward []

/-! ### Blocks -/

/-- What becomes of the line breaks at the end of a block: all but the first are dropped, or all are
dropped, or all are kept. -/
inductive Chomping where
  | clip
  | strip
  | keep
deriving DecidableEq

def chomping? (c : Char) : Option Chomping :=
  if c = '+' then some .keep else if c = '-' then some .strip else none

/-- The chomping and the indentation that the header of a block names, in either order. -/
def blockHeader (c : Cursor) : Except DocumentFault (Chomping × Option Nat × Cursor) := do
  let (chomping, c) := match chomping? c.peek with
    | some chomping => (some chomping, c.forward)
    | none => (none, c)
  let (increment, c) :=
    if Text.isDigit c.peek then (some (c.peek.toNat - '0'.toNat), c.forward) else (none, c)
  let (chomping, c) := match chomping, increment, chomping? c.peek with
    | none, some _, some chomping => (some chomping, c.forward)
    | chomping, _, _ => (chomping, c)
  if increment = some 0 || !isSpaceOrEnd c.peek then throw .malformed
  match c.skipRestOfLine? with
  | some c => return (chomping.getD .clip, increment, c)
  | none => throw .malformed

/-- The line breaks in front of the first line of a block, and the greatest column among their spaces. -/
def leadingBreaks : (fuel : Nat) → Cursor → (breaks : Text) → (greatest : Nat) → Text × Nat × Cursor
  | 0, c, breaks, greatest => (breaks, greatest, c)
  | fuel + 1, c, breaks, greatest =>
    if c.peek = ' ' then
      let c := c.forward
      leadingBreaks fuel c breaks (max greatest c.column)
    else
      match c.lineBreak with
      | ([], c) => (breaks, greatest, c)
      | (lineBreak, c) => leadingBreaks fuel c (breaks ++ lineBreak) greatest

/-- The cursor behind the spaces in front of a column. -/
def skipIndent (indent : Nat) : (fuel : Nat) → Cursor → Cursor
  | 0, c => c
  | fuel + 1, c =>
    if c.column < indent && c.peek == ' ' then skipIndent indent fuel c.forward else c

/-- The line breaks of empty lines between the lines of a block. -/
def blockBreaks (indent : Nat) : (fuel : Nat) → Cursor → Text → Text × Cursor
  | 0, c, breaks => (breaks, c)
  | fuel + 1, c, breaks =>
    match (skipIndent indent indent c).lineBreak with
    | ([], c) => (breaks, c)
    | (lineBreak, c) => blockBreaks indent fuel c (breaks ++ lineBreak)

/-- Whether a line of a block begins at the cursor. -/
def isBlockLine (indent : Nat) (c : Cursor) : Bool :=
  c.column == indent && c.peek != endMark

/-- Reads the lines of a block. The line breaks at the end are given apart: the one behind the last line
and those of the empty lines behind it. -/
def blockLines (fold : Bool) (indent : Nat) :
    (fuel : Nat) → Cursor → (content breaks : Text) → Text × Text × Text × Cursor
  | 0, c, content, breaks => (content, [], breaks, c)
  | fuel + 1, c, content, breaks =>
    if !isBlockLine indent c then (content, [], breaks, c)
    else
      let indented := isSpaceOrTab c.peek
      let (line, c) := c.takeWhile fun x => !isLineEnd x
      let content := content ++ breaks ++ line
      let (lineBreak, c) := c.lineBreak
      let (breaks, c) := blockBreaks indent (c.rest.length + 1) c []
      if isBlockLine indent c then
        let folds := fold && lineBreak == ['\n'] && !indented && !isSpaceOrTab c.peek
        let joint := if !folds then lineBreak else if breaks.isEmpty then [' '] else []
        blockLines fold indent fuel c (content ++ joint) breaks
      else (content, lineBreak, breaks, c)

/-- A block, given the cursor at its indicator and the indentation of the collection around it. -/
def block (fold : Bool) (outer : Int) (c : Cursor) : Except DocumentFault (Text × Cursor) := do
  let (chomping, increment, c) ← blockHeader c.forward
  let least := (max (outer + 1) 1).toNat
  let (indent, breaks, c) :=
    match increment with
    | some n =>
      let indent := least + n - 1
      (indent, blockBreaks indent (c.rest.length + 1) c [])
    | none =>
      let (breaks, greatest, c) := leadingBreaks (c.rest.length + 1) c [] 0
      (max least greatest, breaks, c)
  let (content, lineBreak, breaks, c) := blockLines fold indent (c.rest.length + 1) c [] breaks
  return match chomping with
    | .clip => (content ++ lineBreak, c)
    | .strip => (content, c)
    | .keep => (content ++ lineBreak ++ breaks, c)

end Primitives.Yaml.Scalar
