import Primitives.Files.Resolution

/-!
# Host calls

A disk is a file tree with a working directory. The host calls look at it or change one entry of it,
and fail for exactly one reason, the first that the host checks.

## Main definitions

* `Disk`: a tree with a working directory.
* `Disk.status`, `Disk.readBytes`, `Disk.readLink`, `Disk.listNames`, `Disk.workingPath`: looking.
* `Disk.writeBytes`, `Disk.makeDirectory`, `Disk.makeLink`, `Disk.unlink`, `Disk.removeDirectory`,
  `Disk.rename`, `Disk.setMode`, `Disk.enter`: changing.
-/

namespace Primitives

/-- A file tree with the directory that relative paths start from. -/
structure Disk where
  tree : FileTree
  directory : Standpoint

/-- What is known of the target of a path. -/
inductive Status where
  | file (mode : Nat) (size : Nat)
  | directory (mode : Nat)
  | link
deriving DecidableEq

namespace Status

def isFile : Status → Bool
  | file .. => true
  | _ => false

def isDirectory : Status → Bool
  | directory _ => true
  | _ => false

/-- The permission bits; a link has all of them. -/
def mode : Status → Nat
  | file mode _ => mode
  | directory mode => mode
  | link => 0o777

end Status

namespace Disk

/-- What a path leads to. -/
def resolve (disk : Disk) (purpose : Purpose) (path : Text) : Except Errno Target :=
  disk.tree.resolve disk.directory purpose path

/-! ### Looking -/

/-- The permission bits of a directory; those of a removed one are the usual ones. -/
def directoryMode (disk : Disk) (d : Standpoint) : Nat :=
  if d.removed ≠ 0 then FileTree.directoryMode
  else
    match disk.tree.entry? d.location with
    | some (.directory mode) => mode
    | _ => FileTree.directoryMode

/-- The status of what a path leads to; a link at the end is followed or not. -/
def status (disk : Disk) (path : Text) (follow : Bool) : Except Errno Status := do
  match ← disk.resolve (if follow then .look else .lookAtLink) path with
  | .directory d => return .directory (disk.directoryMode d)
  | .file _ mode content => return .file mode content.length
  | .link .. => return .link
  | .absent _ => throw .noEntry

/-- Whether a path leads to something. -/
def isPresent (disk : Disk) (path : Text) : Bool :=
  (disk.status path true).isOk

def leadsToDirectory (disk : Disk) (path : Text) : Bool :=
  match disk.status path true with
  | .ok status => status.isDirectory
  | .error _ => false

def isLink (disk : Disk) (path : Text) : Bool :=
  match disk.status path false with
  | .ok .link => true
  | _ => false

/-- The bytes of a file. -/
def readBytes (disk : Disk) (path : Text) : Except Errno Bytes := do
  match ← disk.resolve .look path with
  | .file _ _ content => return content
  | .directory _ => throw .isDirectory
  | _ => throw .noEntry

/-- The target of a link. -/
def readLink (disk : Disk) (path : Text) : Except Errno Text := do
  match ← disk.resolve .lookAtLink path with
  | .link _ target => return target
  | .absent _ => throw .noEntry
  | _ => throw .invalid

/-- The names in a directory. -/
def listNames (disk : Disk) (path : Text) : Except Errno (List Text) := do
  match ← disk.resolve .look path with
  | .directory d =>
    if d.removed ≠ 0 then throw .noEntry else return disk.tree.children d.location
  | .absent _ => throw .noEntry
  | _ => throw .notDirectory

/-- The path of a location. -/
def pathOf (p : Location) : Text :=
  if p = [] then ['/'] else p.flatMap fun name => '/' :: name

/-- The path of the working directory, which a removed one has no longer. -/
def workingPath (disk : Disk) : Except Errno Text :=
  if disk.directory.removed ≠ 0 then .error .noEntry else .ok (pathOf disk.directory.location)

/-- Whether two paths lead to the same file or directory. -/
def sameTarget (disk : Disk) (path other : Text) : Except Errno Bool := do
  let a ← disk.resolve .look path
  let b ← disk.resolve .look other
  match a, b with
  | .absent _, _ | _, .absent _ => throw .noEntry
  | .file p .., .file q .. => return p == q
  | .directory d, .directory e => return d == e
  | _, _ => return false

/-! ### Changing -/

/-- Opens a file for writing, creating it if it is missing, and replaces its bytes or adds to them. -/
def writeBytes (disk : Disk) (path : Text) (bytes : Bytes) (append : Bool) :
    Except Errno Disk := do
  match ← disk.resolve .write path with
  | .file p mode content =>
    let content := if append then content ++ bytes else bytes
    return { disk with tree := disk.tree.put p (.file mode content) }
  | .absent p => return { disk with tree := disk.tree.put p (.file FileTree.fileMode bytes) }
  | _ => throw .isDirectory

/-- Creates a directory. -/
def makeDirectory (disk : Disk) (path : Text) : Except Errno Disk := do
  let parent ← disk.tree.resolveParent disk.directory path
  match parent.last with
  | .name n =>
    match ← disk.tree.lookupName parent.directory n with
    | (p, none) => return { disk with tree := disk.tree.put p (.directory FileTree.directoryMode) }
    | (_, some _) => throw .exists
  | _ => throw .exists

/-- Creates a symbolic link. -/
def makeLink (disk : Disk) (target path : Text) : Except Errno Disk := do
  if target.isEmpty then throw .noEntry
  if pathLimit < (Utf8.encode target).length then throw .nameTooLong
  let parent ← disk.tree.resolveParent disk.directory path
  match parent.last with
  | .name n =>
    match ← disk.tree.lookupName parent.directory n with
    | (p, none) =>
      if parent.slash then throw .noEntry
      return { disk with tree := disk.tree.put p (.link target) }
    | (_, some _) => throw .exists
  | _ => throw .exists

/-- Sets the permission bits of what a path leads to. -/
def setMode (disk : Disk) (path : Text) (mode : Nat) : Except Errno Disk := do
  match ← disk.resolve .look path with
  | .file p _ content => return { disk with tree := disk.tree.put p (.file mode content) }
  | .directory d =>
    if d.removed ≠ 0 ∨ d.location = [] then return disk
    return { disk with tree := disk.tree.put d.location (.directory mode) }
  | _ => throw .noEntry

/-- Removes a file or a link. -/
def unlink (disk : Disk) (path : Text) : Except Errno Disk := do
  let parent ← disk.tree.resolveParent disk.directory path
  match parent.last with
  | .name n =>
    match ← disk.tree.lookupName parent.directory n with
    | (_, none) => throw .noEntry
    | (_, some (.directory _)) => throw .isDirectory
    | (p, some _) =>
      if parent.slash then throw .notDirectory
      return { disk with tree := disk.tree.erase p }
  | _ => throw .isDirectory

/-- The disk without an empty directory; a working directory there stands below its parent now. -/
def dropDirectory (disk : Disk) (p : Location) : Disk :=
  let d := disk.directory
  ⟨disk.tree.erase p, if d.location = p then ⟨p.dropLast, d.removed + 1⟩ else d⟩

/-- Removes an empty directory. -/
def removeDirectory (disk : Disk) (path : Text) : Except Errno Disk := do
  let parent ← disk.tree.resolveParent disk.directory path
  match parent.last with
  | .root => throw .busy
  | .dot => throw .invalid
  | .dotDot => throw .notEmpty
  | .name n =>
    match ← disk.tree.lookupName parent.directory n with
    | (_, none) => throw .noEntry
    | (p, some (.directory _)) =>
      if disk.tree.children p ≠ [] then throw .notEmpty
      return disk.dropDirectory p
    | (_, some _) => throw .notDirectory

/-- Moves an entry with all below it to a location without entries, and the working directory with
it. -/
def relocate (disk : Disk) (old new : Location) : Disk :=
  ⟨disk.tree.relocate old new,
    { disk.directory with location := FileTree.relocated old new disk.directory.location }⟩

/-- Puts the entry `e` at `old` in place of what is at `new`. A directory replaces an empty directory
and any other entry replaces a file or a link. -/
def replace (disk : Disk) (old new : Location) (e : Entry) : Except Errno Disk :=
  match e, disk.tree.entry? new with
  | _, none => .ok (disk.relocate old new)
  | .directory _, some (.directory _) =>
    if disk.tree.children new ≠ [] then .error .notEmpty
    else .ok ((disk.dropDirectory new).relocate old new)
  | .directory _, some _ => .error .notDirectory
  | _, some (.directory _) => .error .isDirectory
  | _, some _ => .ok ({ disk with tree := disk.tree.erase new }.relocate old new)

/-- Renames an entry, replacing what the new name holds. -/
def rename (disk : Disk) (source target : Text) : Except Errno Disk := do
  let origin ← disk.tree.resolveParent disk.directory source
  let goal ← disk.tree.resolveParent disk.directory target
  match origin.last, goal.last with
  | .name n, .name m =>
    match ← disk.tree.lookupName origin.directory n with
    | (_, none) => throw .noEntry
    | (old, some e) =>
      let (new, _) ← disk.tree.lookupName goal.directory m
      let isDirectory := match e with
        | .directory _ => true
        | _ => false
      if !isDirectory && (origin.slash || goal.slash) then throw .notDirectory
      if old.isPrefixOf new && old != new then throw .invalid
      if new.isPrefixOf old && old != new then throw .notEmpty
      if old = new then return disk
      disk.replace old new e
  | _, _ => throw .busy

/-- Makes a directory the working directory. -/
def enter (disk : Disk) (path : Text) : Except Errno Disk := do
  match ← disk.resolve .look path with
  | .directory d => return { disk with directory := d }
  | .absent _ => throw .noEntry
  | _ => throw .notDirectory

end Disk

end Primitives
