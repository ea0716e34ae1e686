import Primitives.Files.Calls
import Primitives.Files.PathText
import Primitives.Number.Numeral
import Primitives.Record
import Primitives.Text.Quoted

/-!
# Requests to the host

A request is a sequence of host calls that ends with a value or with an error. Calls that were made
before an error keep their effect. This file states the requests that take several calls: creating a
directory with its missing parents, listing everything below a directory, copying and moving trees.

## Main definitions

* `HostError`: the errors of a request, with their wording.
* `Host`, `Request`: the state of the host and requests to it.
* `Request.makeDirectories`, `Request.walkUpwards`, `Request.copyFile`, `Request.copyTree`,
  `Request.move`: the requests of several calls.
-/

namespace Primitives

/-! ### Errors -/

/-- What a copied tree reports for an entry that was not copied: the entry with the reason, or a
letter of a message. -/
inductive CopyFailure where
  | entry (source target reason : Text)
  | letter (c : Char)
deriving DecidableEq

/-- Why a request fails. -/
inductive HostError where
  | call (errno : Errno) (paths : List Text)
  | embeddedNull
  | sameFile (source target : Text)
  | missingDirectory (path : Text)
  | alreadyExists (path : Text)
  | intoItself (source target : Text)
  | incompleteCopy (failures : List CopyFailure)
deriving DecidableEq

namespace CopyFailure

/-- The text of a failure in a list of failures. -/
def text : CopyFailure → Text
  | entry source target reason =>
    "(" ++ source.quoted ++ ", " ++ target.quoted ++ ", " ++ reason.quoted ++ ")"
  | letter c => Text.quoted [c]

end CopyFailure

namespace HostError

/-- The wording of an error. -/
def message : HostError → Text
  | call errno paths =>
    let place : Text :=
      if paths.isEmpty then [] else ": " ++ Text.join (paths.map Text.quoted) " -> "
    "[Errno " ++ Numeral.ofInt 10 errno.code ++ "] " ++ errno.text ++ place
  | embeddedNull => "embedded null byte"
  | sameFile source target => source ++ " and " ++ target ++ " are the same file"
  | missingDirectory path => "Directory does not exist: " ++ path
  | alreadyExists path => "Destination path '" ++ path ++ "' already exists"
  | intoItself source target =>
    "Cannot move a directory '" ++ source ++ "' into itself '" ++ target ++ "'."
  | incompleteCopy failures => "[" ++ Text.join (failures.map CopyFailure.text) ", " ++ "]"

/-- The number of the host call that failed, if it was one. -/
def code? : HostError → Option Int
  | call errno _ => some errno.code
  | _ => none

/-- Whether the error says that something is missing. -/
def isNotFound : HostError → Bool
  | call errno _ => errno = .noEntry
  | missingDirectory _ => true
  | _ => false

/-- The failures that an error adds to those of the tree that it arises in; an error of copying a
single file onto itself is spelled out letter by letter. -/
def failuresAt (source target : Text) : HostError → List CopyFailure
  | incompleteCopy failures => failures
  | sameFile a b => (message (sameFile a b)).map .letter
  | e => [.entry source target e.message]

end HostError

/-! ### Requests -/

/-- A disk with the records of what happened to it. The renaming that programs ask for may be refused as
if source and target were on different devices, which is how the way around it is tested. There is one
device nonetheless, and a rename inside of `Request.move` is never refused for this reason. -/
structure Host where
  disk : Disk
  refusesRename : Bool
  log : List Record

/-- Calls to the host that end with a value or an error. -/
abbrev Request (α : Type) := ExceptT HostError (StateM Host) α

namespace Request

/-- Whether a path holds the null character, which no host call takes. -/
def hasNull (path : Text) : Bool :=
  path.contains '\x00'

/-- Looks at the disk, with the paths of the call for its error. -/
def look {α : Type} (paths : List Text) (f : Disk → Except Errno α) : Request α := do
  if paths.any hasNull then throw .embeddedNull
  match f (← get).disk with
  | .ok a => return a
  | .error errno => throw (.call errno paths)

/-- Changes the disk, with the paths of the call for its error. -/
def change (paths : List Text) (f : Disk → Except Errno Disk) : Request Unit := do
  let disk ← look paths f
  modify ({ · with disk })

/-- The answer to a question that has no error. -/
def ask {α : Type} (f : Disk → α) : Request α := do
  return f (← get).disk

def record (r : Record) : Request Unit :=
  modify fun host => { host with log := host.log ++ [r] }

/-! ### Directories -/

/-- A path in front of its last component, where slashes at the end do not count as one. -/
def splitHead (path : Text) : Text × Text :=
  let parts := (PathText.dirName path, PathText.baseName path)
  if parts.2.isEmpty then (PathText.dirName parts.1, PathText.baseName parts.1) else parts

/-- Whether an error says that something exists. -/
def isExists : HostError → Bool
  | .call .exists _ => true
  | _ => false

/-- Creates a directory with its missing parents, for at most `depth` levels. An existing directory is
accepted when `existing`. -/
def makeDirectoriesIn (existing : Bool) : (depth : Nat) → Text → Request Unit
  | 0, path => change [path] fun _ => .error .noEntry
  | depth + 1, path => do
    let (head, tail) := splitHead path
    let parentMissing ← ask fun disk => !head.isEmpty && !tail.isEmpty && !disk.isPresent head
    if parentMissing then
      tryCatch (makeDirectoriesIn existing depth head) fun e =>
        if isExists e then pure () else throw e
    if parentMissing && tail = ['.'] then return ()
    tryCatch (change [path] (·.makeDirectory path)) fun e => do
      let present ← ask (·.leadsToDirectory path)
      if existing && present && e != .embeddedNull then pure () else throw e

/-- Creates a directory with its missing parents. -/
def makeDirectories (existing : Bool) (path : Text) : Request Unit :=
  makeDirectoriesIn existing (path.length + 1) path

/-! ### Walking -/

/-- The logger of the host. -/
def hostLogger : Text := "KaedeRT.host"

/-- Everything below a directory, down to at most `depth` levels: each path with whether it is a real
directory, the entries of a directory in front of the directory itself. Links are listed and not
entered, and a directory that cannot be listed is reported. No number of levels is too large for the
calls that are nested for them. -/
def walkUpwardsIn : (depth : Nat) → Text → Request (List (Text × Bool))
  | 0, _ => return []
  | depth + 1, path => do
    match ← tryCatch (some <$> look [path] (·.listNames path)) fun e => do
      if e = .embeddedNull then throw e
      record ⟨hostLogger, .warning, "Error walking " ++ path ++ ": " ++ e.message⟩
      return none with
    | none => return []
    | some names =>
      let paths := names.map (PathText.joinTwo path)
      let (directories, others) ← ask fun disk => paths.partition disk.leadsToDirectory
      let real ← ask fun disk => directories.filter (!disk.isLink ·)
      let below ← real.mapM (walkUpwardsIn depth)
      return below.flatten ++ others.map (·, false)
        ++ directories.map fun p => (p, real.contains p)

/-- Everything below a directory, entries in front of the directory that they lie in. Each level makes
the path longer, so its greatest length bounds the number of levels. -/
def walkUpwards (path : Text) : Request (List (Text × Bool)) :=
  walkUpwardsIn (pathLimit + 1) path

/-- Removes everything below a directory and then the directory. -/
def removeTree (path : Text) : Request Unit := do
  for (p, isDirectory) in ← walkUpwards path do
    if isDirectory then change [p] (·.removeDirectory p) else change [p] (·.unlink p)
  change [path] (·.removeDirectory path)

/-! ### Copying -/

/-- Whether two paths lead to the same file or directory; not if one leads nowhere. -/
def isSameTarget (source target : Text) : Request Bool := do
  if hasNull source then throw .embeddedNull
  match ← ask (·.status source true) with
  | .error _ => return false
  | .ok _ =>
    if hasNull target then throw .embeddedNull
    ask fun disk => (disk.sameTarget source target).toOption.getD false

/-- Copies the bytes of a file; `shown` is how an error shows the source. -/
def copyBytes (shown source target : Text) : Request Unit := do
  if ← isSameTarget source target then throw (.sameFile shown target.quoted)
  if hasNull source || hasNull target then throw .embeddedNull
  let bytes ← look [source] (·.readBytes source)
  tryCatch (change [target] (·.writeBytes target bytes false)) fun e => do
    let present ← ask (·.isPresent target)
    if e = .call .isDirectory [target] && !present then throw (.missingDirectory target)
    else throw e

/-- Gives a path the permission bits of another one. -/
def copyMode (source target : Text) : Request Unit := do
  let status ← look [source] (·.status source true)
  change [target] (·.setMode target status.mode)

/-- The path that a copy to `target` has: inside it when it leads to a directory. -/
def copyTarget (source target : Text) : Request Text := do
  if ← ask (·.leadsToDirectory target) then
    return PathText.joinTwo target (PathText.baseName source)
  else return target

/-- Copies the bytes and the permission bits of a file, into a directory under its own name, and gives
the path of the copy. -/
def copyFileAs (shown source target : Text) : Request Text := do
  let target ← copyTarget source target
  copyBytes shown source target
  copyMode source target
  return target

def copyFile (source target : Text) : Request Text :=
  copyFileAs source.quoted source target

/-- Copies a tree of at most `depth` levels: links as links, files with their permission bits. The
entries that fail are collected and reported together at the end. -/
def copyTreeIn (existing : Bool) : (depth : Nat) → Text → Text → Request Unit
  | 0, source, _ => change [source] fun _ => .error .nameTooLong
  | depth + 1, source, target => do
    let names ← look [source] (·.listNames source)
    makeDirectories existing target
    let failures ← names.mapM fun name => do
      let origin := PathText.joinTwo source name
      let goal := PathText.joinTwo target name
      tryCatch (do
        match ← ask (·.status origin false) with
        | .ok .link =>
          let link ← look [origin] (·.readLink origin)
          change [link, goal] (·.makeLink link goal)
        | .ok (.directory _) => copyTreeIn existing depth origin goal
        | _ => discard (copyFileAs ("<DirEntry " ++ name.quoted ++ ">") origin goal)
        return []) fun e => if e = .embeddedNull then throw e else return e.failuresAt origin goal
    let last ← tryCatch (do copyMode source target; return []) fun e =>
      if e = .embeddedNull then throw e else return [.entry source target e.message]
    let all := failures.flatten ++ last
    if !all.isEmpty then throw (.incompleteCopy all)

/-- Copies a tree, into an existing directory only when `existing`. -/
def copyTree (existing : Bool) (source target : Text) : Request Unit :=
  copyTreeIn existing (pathLimit + 1) source target

/-! ### Moving -/

/-- Whether a path lies at or below another one, by the letters of their absolute forms. -/
def isInside (outer inner : Text) : Request Bool := do
  let directory ← if PathText.isAbsolute outer && PathText.isAbsolute inner then pure []
    else look [] (·.workingPath)
  let closed := fun (p : Text) => if p.getLast? == some '/' then p else p ++ ['/']
  return (closed (PathText.absolute directory outer)).isPrefixOf
    (closed (PathText.absolute directory inner))

/-- Moves by copying and removing the source. -/
def moveByCopy (source target shownTarget : Text) : Request Unit := do
  if ← ask (·.isLink source) then
    let link ← look [source] (·.readLink source)
    change [link, target] (·.makeLink link target)
    change [source] (·.unlink source)
  else if ← ask (·.leadsToDirectory source) then
    if ← isInside source shownTarget then throw (.intoItself source shownTarget)
    copyTree false source target
    removeTree source
  else
    discard (copyFile source target)
    change [source] (·.unlink source)

/-- Renames without regard to devices. -/
def renameOn (source target : Text) : Request Unit :=
  change [source, target] (·.rename source target)

/-- Whether a directory, given by itself and not by a link, would be moved onto itself. -/
def isMoveOntoItself (source target : Text) : Request Bool := do
  if ← isSameTarget source target then return !(← ask (·.isLink source)) else return false

/-- The path that a move into a directory has, where nothing may be. -/
def moveTarget (source target : Text) : Request Text := do
  let name := PathText.baseName (PathText.withoutTrailingSlashes source)
  let real := PathText.joinTwo target name
  if ← ask (·.isPresent real) then throw (.alreadyExists real) else return real

/-- Renames, or moves by copying when that fails. -/
def renameOrCopy (source target shownTarget : Text) : Request Unit :=
  tryCatch (renameOn source target) fun e =>
    if e = .embeddedNull then throw e else moveByCopy source target shownTarget

/-- Moves to a path, or into the directory that it leads to under the name of the source; by copying
when renaming fails. Gives the new path, and none for a directory renamed onto itself. -/
def move (source target : Text) : Request (Option Text) := do
  if ← ask (·.leadsToDirectory target) then
    if ← isMoveOntoItself source target then
      renameOn source target
      return none
    let real ← moveTarget source target
    renameOrCopy source real target
    return some real
  else
    renameOrCopy source target target
    return some target

end Request

end Primitives
