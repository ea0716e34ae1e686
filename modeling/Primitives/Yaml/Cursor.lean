import Primitives.Text.Ascii
import Primitives.Text.Search

/-!
# Cursors in documents

A cursor is the rest of a document with the place where it begins: its index, its line and its column.
Columns count characters behind the last line break, without byte order marks. Behind the end a cursor
sees the null character, which no document contains.

## Main definitions

* `Yaml.isBreak`, `Yaml.isGap`, `Yaml.isAllowed`: classes of characters.
* `Yaml.Cursor`: cursors.
* `Yaml.Cursor.takeWhile`, `Yaml.Cursor.lineBreak`, `Yaml.Cursor.isSeparator`: steps and questions.
-/

namespace Primitives.Yaml

/-! ### Characters -/

/-- What a cursor sees behind the end. -/
def endMark : Char := '\x00'

/-- Whether a character ends a line. -/
def isBreak (c : Char) : Bool :=
  c == '\n' || c == '\r' || c == '\x85' || c == '\u2028' || c == '\u2029'

/-- Whether a character ends a line or the document. -/
def isLineEnd (c : Char) : Bool :=
  c == endMark || isBreak c

/-- Whether a character is a space or ends a line or the document. -/
def isSpaceOrEnd (c : Char) : Bool :=
  c == ' ' || isLineEnd c

/-- Whether a character is a space or a tab. -/
def isSpaceOrTab (c : Char) : Bool :=
  c == ' ' || c == '\t'

/-- Whether a character stands between tokens: a space, a tab, or the end of a line or the document. -/
def isGap (c : Char) : Bool :=
  isSpaceOrTab c || isLineEnd c

/-- Whether a character may occur in the name of an anchor, a directive or a tag handle. -/
def isNameChar (c : Char) : Bool :=
  Text.isDigit c || Text.isLetter c || c == '-' || c == '_'

/-- Whether a character may occur in a tag, percent signs of escapes included. -/
def isTagChar (c : Char) : Bool :=
  Text.isDigit c || Text.isLetter c || "-;/?:@&=+$,_.!~*'()[]%".toList.contains c

def isHexDigit (c : Char) : Bool :=
  Text.isDigit c || ('a' ≤ c && c ≤ 'f') || ('A' ≤ c && c ≤ 'F')

/-- The number that a hexadecimal digit stands for. -/
def hexValue (c : Char) : Nat :=
  if Text.isDigit c then c.toNat - '0'.toNat else (Text.lowerChar c).toNat - 'a'.toNat + 10

/-- The number that hexadecimal digits stand for. -/
def hexNumber (digits : Text) : Nat :=
  digits.foldl (fun n c => 16 * n + hexValue c) 0

/-- Whether a character may occur in a document: tab, line feed, carriage return, next line, and all
others that are no controls, no byte order accidents and no unassigned values. -/
def isAllowed (c : Char) : Bool :=
  let n := c.toNat
  n == 0x09 || n == 0x0a || n == 0x0d || (0x20 ≤ n && n ≤ 0x7e) || n == 0x85
    || (0xa0 ≤ n && n ≤ 0xd7ff) || (0xe000 ≤ n && n ≤ 0xfffd) || 0x10000 ≤ n

/-! ### Cursors -/

/-- The rest of a document and the place where it begins. -/
structure Cursor where
  rest : Text
  index : Nat
  line : Nat
  column : Nat

namespace Cursor

/-- A cursor at the start of a document. -/
def start (document : Text) : Cursor :=
  ⟨document, 0, 0, 0⟩

/-- The character at a distance from the cursor. -/
def peekAt (c : Cursor) (distance : Nat) : Char :=
  c.rest.getD distance endMark

/-- The character at the cursor. -/
def peek (c : Cursor) : Char :=
  c.peekAt 0

/-- The cursor behind one character. -/
def forward (c : Cursor) : Cursor :=
  match c.rest with
  | [] => c
  | x :: rest =>
    if isBreak x then ⟨rest, c.index + 1, c.line + 1, 0⟩
    else ⟨rest, c.index + 1, c.line, if x = '\uFEFF' then c.column else c.column + 1⟩

/-- The cursor behind several characters. -/
def skip (c : Cursor) : Nat → Cursor
  | 0 => c
  | n + 1 => c.forward.skip n

/-- The characters up to the first one outside of a class, and the cursor behind them. -/
def takeWhile (c : Cursor) (p : Char → Bool) : Text × Cursor :=
  let taken := c.rest.takeWhile p
  (taken, c.skip taken.length)

/-- The cursor behind the characters of a class. -/
def skipWhile (c : Cursor) (p : Char → Bool) : Cursor :=
  (c.takeWhile p).2

/-- The cursor behind spaces. -/
def skipSpaces (c : Cursor) : Cursor :=
  c.skipWhile (· == ' ')

/-- The cursor behind a comment, if there is one. -/
def skipComment (c : Cursor) : Cursor :=
  if c.peek = '#' then c.skipWhile fun x => !isLineEnd x else c

/-- The line break at the cursor as it counts in scalars, empty for none, and the cursor behind it. -/
def lineBreak (c : Cursor) : Text × Cursor :=
  let x := c.peek
  if !isBreak x then ([], c)
  else if x = '\r' && c.peekAt 1 = '\n' then (['\n'], c.skip 2)
  else if x = '\u2028' || x = '\u2029' then ([x], c.forward)
  else (['\n'], c.forward)

/-- Whether three characters and then a gap stand at the cursor. -/
def isMarker (c : Cursor) (mark : Char) : Bool :=
  c.peek == mark && c.peekAt 1 == mark && c.peekAt 2 == mark && isGap (c.peekAt 3)

/-- Whether documents are separated at the cursor, if it stands at the beginning of a line. -/
def isSeparator (c : Cursor) : Bool :=
  c.isMarker '-' || c.isMarker '.'

/-- The cursor behind spaces, a comment and a line break, none if anything else comes first. -/
def skipRestOfLine? (c : Cursor) : Option Cursor :=
  let c := c.skipSpaces.skipComment
  if isLineEnd c.peek then some c.lineBreak.2 else none

end Cursor

end Primitives.Yaml
