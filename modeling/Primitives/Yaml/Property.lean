import Primitives.Codec.Utf8
import Primitives.Yaml.Scalar

/-!
# Directives, anchors and tags in documents

A directive is a line that begins with a percent sign; it names the version of the language or an
abbreviation for tags. An anchor names a node, and an alias stands for the node of a name. A tag is
written in angle brackets, or as an abbreviation followed by the rest of the tag.

## Main definitions

* `Yaml.Directive`, `Yaml.Property.directive`: directives.
* `Yaml.Property.anchor`: the name of an anchor or an alias.
* `Yaml.Property.tag`: a tag as it is written.
-/

namespace Primitives.Yaml

/-- A directive: the version of the language, an abbreviation of a beginning of tags, or one that is
ignored. -/
inductive Directive where
  | version (major : Nat)
  | abbreviation (handle stem : Text)
  | ignored
deriving DecidableEq

/-- A tag as it is written: in full, or behind an abbreviation. -/
structure WrittenTag where
  handle : Option Text
  suffix : Text
deriving DecidableEq

namespace Property

/-! ### Names and tags -/

/-- A name that is not empty. -/
def name (c : Cursor) : Except DocumentFault (Text × Cursor) :=
  let (s, c) := c.takeWhile isNameChar
  if s.isEmpty then .error .malformed else .ok (s, c)

/-- The name of an anchor or an alias, given the cursor at its indicator. -/
def anchor (c : Cursor) : Except DocumentFault (Text × Cursor) := do
  let (s, c) ← name c.forward
  if isGap c.peek || "?:,]\x7d%@`".toList.contains c.peek then return (s, c)
  else throw .malformed

/-- An abbreviation: an exclamation mark alone or two of them around a name. -/
def handle (c : Cursor) : Except DocumentFault (Text × Cursor) :=
  if c.peek ≠ '!' then .error .malformed
  else if c.peekAt 1 = ' ' then .ok (['!'], c.forward)
  else
    let (s, c) := c.forward.takeWhile isNameChar
    if c.peek = '!' then .ok ('!' :: s ++ ['!'], c.forward) else .error .malformed

/-- The bytes of a run of escapes by percent signs. -/
def escapedBytes : (fuel : Nat) → Cursor → Except DocumentFault (Bytes × Cursor)
  | 0, c => .ok ([], c)
  | fuel + 1, c =>
    if c.peek ≠ '%' then .ok ([], c)
    else
      let digits := (c.forward.rest).take 2
      if digits.length = 2 && digits.all isHexDigit then do
        let (bytes, c) ← escapedBytes fuel (c.skip 3)
        return (UInt8.ofNat (hexNumber digits) :: bytes, c)
      else .error .malformed

/-- The characters of a tag, runs of escapes read as UTF-8. -/
def tagCharsFrom : (fuel : Nat) → Cursor → Text → Except DocumentFault (Text × Cursor)
  | 0, c, s => .ok (s, c)
  | fuel + 1, c, s =>
    if c.peek = '%' then do
      let (bytes, c) ← escapedBytes (c.rest.length + 1) c
      match Utf8.decode bytes with
      | .ok t => tagCharsFrom fuel c (s ++ t)
      | .error _ => throw .malformed
    else if isTagChar c.peek then tagCharsFrom fuel c.forward (s ++ [c.peek])
    else .ok (s, c)

/-- The characters of a tag, at least one. -/
def tagChars (c : Cursor) : Except DocumentFault (Text × Cursor) :=
  if isTagChar c.peek then tagCharsFrom (c.rest.length + 1) c [] else .error .malformed

/-- Whether an abbreviation with a second exclamation mark stands behind the first one. -/
def hasHandle (c : Cursor) : Bool :=
  (c.forward.rest.takeWhile fun x => !isSpaceOrEnd x).contains '!'

/-- A tag, given the cursor at its exclamation mark. -/
def tag (c : Cursor) : Except DocumentFault (WrittenTag × Cursor) := do
  let next := c.peekAt 1
  let (written, c) ←
    if next = '<' then do
      let (suffix, c) ← tagChars (c.skip 2)
      if c.peek = '>' then pure (⟨none, suffix⟩, c.forward) else throw .malformed
    else if isGap next then pure (⟨none, ['!']⟩, c.forward)
    else do
      let (handle, c) ← if hasHandle c then handle c else pure (['!'], c.forward)
      let (suffix, c) ← tagChars c
      pure ((⟨some handle, suffix⟩ : WrittenTag), c)
  if isSpaceOrEnd c.peek then return (written, c) else throw .malformed

/-! ### Directives -/

/-- A number of the version directive. -/
def versionNumber (c : Cursor) : Except DocumentFault (Nat × Cursor) :=
  let (digits, c) := c.takeWhile Text.isDigit
  if digits.isEmpty then .error .malformed
  else
    match Numeral.read digits with
    | .ok n => .ok (n, c)
    | .error fault => .error (.longInt fault)

/-- The numbers of the version directive, of which the first one counts. -/
def version (c : Cursor) : Except DocumentFault (Directive × Cursor) := do
  let (major, c) ← versionNumber c.skipSpaces
  if c.peek ≠ '.' then throw .malformed
  let (_, c) ← versionNumber c.forward
  if isSpaceOrEnd c.peek then return (.version major, c) else throw .malformed

/-- The abbreviation of the tag directive and what it stands for. -/
def abbreviation (c : Cursor) : Except DocumentFault (Directive × Cursor) := do
  let (handle, c) ← handle c.skipSpaces
  if c.peek ≠ ' ' then throw .malformed
  let (stem, c) ← tagChars c.skipSpaces
  if isSpaceOrEnd c.peek then return (.abbreviation handle stem, c) else throw .malformed

/-- A directive with the rest of its line, given the cursor at its percent sign. -/
def directive (c : Cursor) : Except DocumentFault (Directive × Cursor) := do
  let (s, c) ← name c.forward
  if !isSpaceOrEnd c.peek then throw .malformed
  let (d, c) ←
    if s = "YAML".toList then version c
    else if s = "TAG".toList then abbreviation c
    else pure (.ignored, c.skipWhile fun x => !isLineEnd x)
  match c.skipRestOfLine? with
  | some c => return (d, c)
  | none => throw .malformed

end Property

end Primitives.Yaml
