import Primitives.Codec.Base64
import Primitives.Codec.StandardCharset
import Primitives.Yaml.Calendar
import Primitives.Yaml.Grammar
import Primitives.Yaml.Numeral

/-!
# Documents

A document stands for a datum. Its node is read first, and then the data of the nodes inside of it: those
of a collection only after everything that stands no deeper than the collection itself. Of several faults
the least deep one is therefore met first, and the first one of those at the same depth.

A loader of documents takes the bytes of a file as UTF-8 text with lines that end in any of the usual ways.
This one decodes all of them before it reads the document; a loader that goes through a long file piece by
piece may meet a malformed token before it meets a wrong byte.

## Main definitions

* `Yaml.datumOfScalar`: the datum of a scalar.
* `Yaml.Node.datum`: the datum of a node.
* `Yaml.load`: the datum of a document.
* `Yaml.loadBytes`: the datum of a file with a document.
-/

namespace Primitives.Yaml

/-! ### Scalars -/

/-- The truth value that a word in small letters stands for. -/
def truth? (word : Text) : Option Bool :=
  if ["yes", "true", "on"].any (·.toList == word) then some true
  else if ["no", "false", "off"].any (·.toList == word) then some false
  else none

/-- The bytes that characters of seven bits stand for. -/
def bytesOfScalar (s : Text) : Except DocumentFault Bytes :=
  if s.all (·.toNat < 0x80) then
    match Base64.decode? s with
    | some bytes => .ok bytes
    | none => .error .malformed
  else .error .malformed

/-- The datum that a scalar with a tag stands for. -/
def datumOfScalar (tag : Tag) (s : Text) : Except DocumentFault Datum :=
  match tag with
  | .null => .ok .null
  | .bool =>
    match truth? (Text.lower s) with
    | some b => .ok (.bool b)
    | none => .error (.notBool (Text.lower s))
  | .int => (intOfScalar s).map .int
  | .double => (doubleOfScalar s).map .double
  | .binary => (bytesOfScalar s).map .bytes
  | .timestamp => datumOfTimestamp s
  | .text => .ok (.text s)
  | _ => .error .malformed

/-! ### Faults by depth -/

/-- A fault with the depth at which it is met. -/
structure NodeFault where
  depth : Nat
  fault : DocumentFault
deriving DecidableEq

/-- What is made of nodes. -/
abbrev Made (α : Type) := Except NodeFault α

namespace Made

/-- The result of a node itself. -/
def here {α : Type} (x : Except DocumentFault α) : Made α :=
  x.mapError (⟨0, ·⟩)

/-- The result of what stands inside of a node. -/
def inside {α : Type} (x : Made α) : Made α :=
  x.mapError fun e => { e with depth := e.depth + 1 }

/-- Two results, or the fault that is met first. -/
def both {α β : Type} : Made α → Made β → Made (α × β)
  | .ok x, .ok y => .ok (x, y)
  | .ok _, .error e => .error e
  | .error e, .ok _ => .error e
  | .error e, .error e' => .error (if e'.depth < e.depth then e' else e)

end Made

namespace Node

/-! ### Default values -/

mutual

/-- The text of a scalar, or of the default value of a mapping. -/
def text? : Node → Option Text
  | scalar _ s => some s
  | mapping _ entries => defaultText? entries
  | _ => none

def defaultText? : List (Node × Node) → Option Text
  | [] => none
  | (key, n) :: entries => if key.tag = .default then n.text? else defaultText? entries

end

/-! ### Data -/

/-- The collection that a node encloses itself in, without what it holds. -/
def hollow : Tag → Except DocumentFault Datum
  | .sequence | .orderedPairs | .pairs => .ok (.list [])
  | .mapping => .ok (.mapping [])
  | .set => .ok (.set [])
  | _ => .error .malformed

/-- The datum of a key: not a collection, and met where the key stands as a whole. -/
def keyDatum (key : Node) (d : Made Datum) : Made Datum :=
  match key, d with
  | scalar .default s, _ => .ok (.text s)
  | _, .ok d => if d.isKey then .ok d else .error ⟨0, .malformed⟩
  | _, .error e => .error ⟨0, e.fault⟩

/-- The datum of a mapping with a tag. -/
def mappingDatum (tag : Tag) (entries : Made (List (Datum × Datum))) (text? : Option Text) :
    Made Datum :=
  let whole := (Made.inside entries).map fun entries =>
    entries.foldl (fun whole (key, d) => Datum.put whole key d) []
  match tag, text? with
  | .mapping, _ => whole.map .mapping
  | .set, _ => whole.map fun entries => .set (entries.map (·.1))
  | tag, some s => .here (datumOfScalar tag s)
  | _, none => .error ⟨0, .malformed⟩

mutual

/-- The datum that a node stands for. -/
def datum : Node → Made Datum
  | scalar tag s => .here (datumOfScalar tag s)
  | sequence tag items =>
    match tag with
    | .sequence => (Made.inside (itemData items)).map .list
    | .orderedPairs | .pairs => (Made.inside (pairData items)).map .list
    | _ => .error ⟨0, .malformed⟩
  | mapping tag entries => mappingDatum tag (entryData entries) (defaultText? entries)
  | unmergeable _ => .error ⟨1, .malformed⟩
  | enclosing tag => .here (hollow tag)

/-- The data of the items of a sequence. -/
def itemData : List Node → Made (List Datum)
  | [] => .ok []
  | n :: items => (Made.both n.datum (itemData items)).map fun (d, data) => d :: data

/-- The data of the entries of a mapping. -/
def entryData : List (Node × Node) → Made (List (Datum × Datum))
  | [] => .ok []
  | (key, n) :: entries =>
    (Made.both (Made.both (keyDatum key key.datum) n.datum) (entryData entries)).map
      fun (entry, data) => entry :: data

/-- The data of pairs, each written as a mapping with one entry. -/
def pairData : List Node → Made (List Datum)
  | [] => .ok []
  | mapping _ [(key, n)] :: items =>
    (Made.both (Made.both key.datum n.datum) (pairData items)).map
      fun ((k, d), data) => .list [k, d] :: data
  | _ :: _ => .error ⟨0, .malformed⟩

end

end Node

/-! ### Documents -/

/-- The datum that a document with nodes down to a depth stands for; no document stands for the empty
value. -/
def load (depth : Nat) (document : Text) : Except DocumentFault Datum := do
  if !document.all isAllowed then throw .malformed
  let (ahead, fault) := tokens document
  match ← Node.ofTokens? depth ahead fault with
  | none => return .null
  | some n => n.datum.mapError NodeFault.fault

/-! ### Files -/

/-- The lines of a text ended by newlines only: a carriage return, with the newline behind it if there is
one, becomes a newline. -/
def normalizeLineEnds : Text → Text
  | [] => []
  | '\r' :: '\n' :: s => '\n' :: normalizeLineEnds s
  | '\r' :: s => '\n' :: normalizeLineEnds s
  | c :: s => c :: normalizeLineEnds s

/-- The text that bytes encode. A sequence that the end cuts off is reported by its own positions. -/
def decodeStream (bytes : Bytes) : Except DecodeFault Text :=
  match StandardCharset.utf8.decode bytes with
  | .ok s => .ok (normalizeLineEnds s)
  | .error fault =>
    if fault.reason = some .truncated then
      .error { fault with start := 0, stop := fault.stop - fault.start }
    else .error fault

/-- The datum of the document that bytes encode. -/
def loadBytes (depth : Nat) (bytes : Bytes) : Except LoadFault Datum := do
  let document ← (decodeStream bytes).mapError (.encoding ·.message)
  (load depth document).mapError .document

end Primitives.Yaml
