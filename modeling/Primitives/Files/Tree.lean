import Primitives.Codec.Utf8

/-!
# File trees

A file tree is a finite map from locations to entries: files with their bytes, directories and
symbolic links. A location is the list of names that leads to it from the root, and the root itself is
always a directory. The entry put last comes last.

## Main definitions

* `Location`, `Entry`, `FileTree`: locations, entries and trees.
* `FileTree.entry?`: the entry at a location.
* `FileTree.put`, `FileTree.erase`, `FileTree.relocate`: changes of a tree.
* `FileTree.children`: the names in a directory.
* `FileTree.Closed`: every entry lies in a directory.

## Main results

* `FileTree.lookup_put`, `FileTree.lookup_erase`: a change at one location leaves the others.
-/

namespace Primitives

/-- The names that lead to an entry from the root. -/
abbrev Location := List Text

/-- What a location holds; files and directories have permission bits. -/
inductive Entry where
  | file (mode : Nat) (content : Bytes)
  | directory (mode : Nat)
  | link (target : Text)
deriving DecidableEq

/-- Entries by location, the one put last at the end. -/
structure FileTree where
  entries : List (Location × Entry)

namespace FileTree

/-- A tree with nothing but its root. -/
def empty : FileTree := ⟨[]⟩

/-- The entry below the root that a location holds. -/
def lookup (t : FileTree) (p : Location) : Option Entry :=
  (t.entries.find? (·.1 == p)).map Prod.snd

/-- The permission bits of the root and of new directories and files. -/
def directoryMode : Nat := 0o755

def fileMode : Nat := 0o644

/-- The entry at a location; the root is a directory. -/
def entry? (t : FileTree) (p : Location) : Option Entry :=
  if p = [] then some (.directory directoryMode) else t.lookup p

/-- Whether a location holds a directory. -/
def isDirectory (t : FileTree) (p : Location) : Bool :=
  match t.entry? p with
  | some (.directory _) => true
  | _ => false

/-- Every entry lies in a directory. -/
def Closed (t : FileTree) : Prop :=
  ∀ p n, (t.lookup (p ++ [n])).isSome → t.isDirectory p

/-! ### Changes -/

/-- Removes the entry at a location. -/
def erase (t : FileTree) (p : Location) : FileTree :=
  ⟨t.entries.filter (·.1 != p)⟩

/-- Puts an entry at a location, in place of the one that it holds. -/
def put (t : FileTree) (p : Location) (e : Entry) : FileTree :=
  ⟨(t.erase p).entries ++ [(p, e)]⟩

/-- The location that `p` has when everything at and below `old` is found at `new` instead. -/
def relocated (old new p : Location) : Location :=
  if old.isPrefixOf p then new ++ p.drop old.length else p

/-- Moves an entry and everything below it to a location that holds nothing. -/
def relocate (t : FileTree) (old new : Location) : FileTree :=
  ⟨t.entries.map fun (p, e) => (relocated old new p, e)⟩

/-! ### Children -/

/-- The name of `p` in the directory `parent`, none if it does not lie directly in it. -/
def childName? (parent p : Location) : Option Text :=
  match p.reverse with
  | [] => none
  | name :: rest => if rest.reverse == parent then some name else none

/-- The names in a directory. -/
def children (t : FileTree) (parent : Location) : List Text :=
  t.entries.filterMap fun (p, _) => childName? parent p

/-! ### Laws of lookup -/

theorem lookup_erase (t : FileTree) (p q : Location) :
    (t.erase p).lookup q = if q = p then none else t.lookup q := by
  obtain ⟨entries⟩ := t
  simp only [erase, lookup, List.find?_filter]
  by_cases hq : q = p
  · subst hq
    simp
  · simp only [hq, if_false]
    congr 1
    congr 1
    funext x
    by_cases hx : x.1 = q
    · simp [hx, hq]
    · simp [hx]

theorem lookup_put (t : FileTree) (p q : Location) (e : Entry) :
    (t.put p e).lookup q = if q = p then some e else t.lookup q := by
  have herase := lookup_erase t p q
  simp only [lookup, put, List.find?_append] at herase ⊢
  by_cases hq : q = p
  · have hnone : (t.erase p).entries.find? (·.1 == q) = none := by simpa [hq] using herase
    simp [hq, hq ▸ hnone]
  · have hpq : (p == q) = false := by simpa using Ne.symm hq
    simpa [hq, hpq] using herase

end FileTree

end Primitives
