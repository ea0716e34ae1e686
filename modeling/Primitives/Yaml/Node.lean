import Primitives.Yaml.Tag

/-!
# Nodes of documents

A document is a tree of nodes: scalars, sequences and mappings, each with a tag. An anchor gives a node a
name, and an alias stands for a copy of the node of that name; inside of the node itself it stands for
the node that encloses it. Entries of a mapping under a merge key are entries of other mappings, which
come in front of the mapping's own.

## Main definitions

* `Yaml.Node`: nodes.
* `Yaml.Node.ofEntries`: a mapping of entries, merged ones included.
-/

namespace Primitives.Yaml

/-- A node of a document. A mapping is unmergeable if it merges something that is no mapping. -/
inductive Node where
  | scalar (tag : Tag) (content : Text)
  | sequence (tag : Tag) (items : List Node)
  | mapping (tag : Tag) (entries : List (Node × Node))
  | unmergeable (tag : Tag)
  | enclosing (tag : Tag)

namespace Node

/-- The tag of a node. -/
def tag : Node → Tag
  | scalar tag _ | sequence tag _ | mapping tag _ | unmergeable tag | enclosing tag => tag

/-- The node of nothing at all. -/
def empty : Node :=
  scalar (.ofPlain []) []

/-! ### Merged entries -/

/-- The entries that an item of a merged sequence has to offer, none if it is no mapping. -/
def itemEntries? : Node → Option (List (Node × Node))
  | mapping _ entries => some entries
  | enclosing _ => some []
  | _ => none

/-- The entries that a merged node has to offer, those of the last item of a sequence first. -/
def mergedEntries? : Node → Option (List (Node × Node))
  | sequence _ items => (items.mapM itemEntries?).map fun parts => parts.reverse.flatten
  | n => n.itemEntries?

/-- A mapping of entries: those that are merged, and then its own. -/
def ofEntries (tag : Tag) (entries : List (Node × Node)) : Node :=
  let (merges, own) := entries.partition fun (key, _) => key.tag = .merge
  match merges.mapM fun (_, n) => n.mergedEntries? with
  | some parts => mapping tag (parts.flatten ++ own)
  | none => unmergeable tag

end Node

end Primitives.Yaml
