import Primitives.Files.Host

/-!
# File operations of a program

The file operations that a program calls fold every failure of the host into a plain value: none, false,
-1, zero or an empty list. Only an encoding that is unknown or not meant for texts escapes.

## Main definitions

* `FileSystem.readFile`, `FileSystem.writeFile`, `FileSystem.readLines`, `FileSystem.writeLines`:
  whole files as texts or lines.
* `FileSystem.exists`, `FileSystem.isFile`, `FileSystem.isDir`, `FileSystem.fileSize`: questions.
* `FileSystem.makeDirectories`, `FileSystem.remove`, `FileSystem.removeAll`, `FileSystem.copy`,
  `FileSystem.move`: changes.
-/

namespace Primitives.FileSystem

/-! ### Lines -/

/-- A line without the carriage return at its end. -/
def withoutReturn (line : Text) : Text :=
  if line.getLast? == some '\r' then line.dropLast else line

/-- The lines of a text: the parts between newlines, without an empty part behind the last newline, and
each without a carriage return at its end. -/
def lines (content : Text) : List Text :=
  let parts := content.split ['\n']
  let parts := if parts.getLast? == some [] then parts.dropLast else parts
  parts.map withoutReturn

/-- The text that holds lines, each with a newline behind it. -/
def unlines (ls : List Text) : Text :=
  ls.flatMap (· ++ ['\n'])

/-! ### Whole files -/

section

variable [Surroundings] (encoding : Text)

/-- The text of a file, none when it cannot be read. -/
def readFile (path : Text) : HostM (Except EncodingFault (Option Text)) := do
  match ← Host.readText path encoding with
  | .error fault => return .error fault
  | .ok (.success s _) => return .ok (some s)
  | .ok (.failure _) => return .ok none

/-- Replaces the text of a file, and tells whether that succeeded. -/
def writeFile (path content : Text) : HostM (Except EncodingFault Bool) := do
  return (← Host.writeText path content encoding false).map HostResult.isSuccess

/-- Adds a text to a file, and tells whether that succeeded. -/
def appendFile (path content : Text) : HostM (Except EncodingFault Bool) := do
  return (← Host.writeText path content encoding true).map HostResult.isSuccess

/-- The lines of a file, none when it cannot be read. -/
def readLines (path : Text) : HostM (Except EncodingFault (List Text)) := do
  return (← readFile encoding path).map fun content => lines (content.getD [])

/-- Replaces the text of a file by lines. -/
def writeLines (path : Text) (ls : List Text) : HostM (Except EncodingFault Bool) :=
  writeFile encoding path (unlines ls)

end

/-! ### Questions -/

/-- What is known of the target of a path. -/
def status? (path : Text) (follow : Bool) : HostM (Option Status) := do
  match ← Host.status path follow with
  | .success status _ => return some status
  | .failure _ => return none

def «exists» (path : Text) : HostM Bool := do
  return (← status? path true).isSome

def isFile (path : Text) : HostM Bool := do
  return (← status? path true).any Status.isFile

def isDir (path : Text) : HostM Bool := do
  return (← status? path true).any Status.isDirectory

/-- The number of bytes of a file, -1 for anything else. -/
def fileSize (path : Text) : HostM Int := do
  match ← status? path true with
  | some (.file _ size) => return size
  | _ => return -1

/-- The names in a directory, none when it cannot be listed. -/
def listDir (path : Text) : HostM (List Text) := do
  return (← Host.listNames path).valueOr []

/-- The path of the working directory, empty when it has none. -/
def workingDirectory : HostM Text := do
  return (← Host.workingPath).valueOr []

/-! ### Changes -/

def makeDirectory (path : Text) : HostM Bool := do
  return (← Host.makeDirectory path).isSuccess

/-- Creates a directory with its missing parents, and tells whether it is there afterwards. Any number of
parents may be missing; the depth of nested calls is not modelled. -/
def makeDirectories (path : Text) : HostM Bool := do
  if (← Host.makeDirectories path).isSuccess then isDir path else return false

/-- Removes a file, a link or an empty directory. -/
def remove (path : Text) : HostM Bool := do
  match ← status? path false with
  | none => return false
  | some status =>
    if status.isDirectory then return (← Host.removeDirectory path).isSuccess
    else return (← Host.removeFile path).isSuccess

/-- Removes listed entries one by one and counts those that went. -/
def removeEntries : List (Text × Bool) → HostM Nat
  | [] => return 0
  | (path, isDirectory) :: entries => do
    let result ← if isDirectory then Host.removeDirectory path else Host.removeFile path
    let count ← removeEntries entries
    return if result.isSuccess then count + 1 else count

/-- The logger of the file operations. -/
def logger : Text := "KaedeRT.fs"

/-- Removes an entry with everything below it, and gives the number of entries removed. -/
def removeAll (path : Text) : HostM Nat := do
  match ← status? path false with
  | none => return 0
  | some status =>
    if !status.isDirectory then
      return if (← Host.removeFile path).isSuccess then 1 else 0
    let entries := (← Host.walkUpwards path).valueOr []
    let count ← removeEntries entries
    if (← Host.removeDirectory path).isSuccess then return count + 1
    let message : Text :=
      "remove_all " ++ path ++ ": " ++ Numeral.ofNat 10 count
        ++ " entries removed, directory kept"
    modify fun host => { host with log := host.log ++ [⟨logger, .warning, message⟩] }
    return count

/-- Copies a file or a directory with everything below it, however deep it goes; the depth of nested
calls is not modelled. -/
def copy (source target : Text) : HostM Bool := do
  if ← isDir source then return (← Host.copyTree source target).isSuccess
  else return (← Host.copyFile source target).isSuccess

/-- Renames an entry; moves it by other means where the host reports that it crosses devices. -/
def move (source target : Text) : HostM Bool := do
  match ← Host.rename source target with
  | .success .. => return true
  | .failure f =>
    if f.code = some Errno.crossDevice.code then
      return (← Host.moveAcrossDevices source target).isSuccess
    else return false

/-- Makes a directory the working directory. -/
def enter (path : Text) : HostM Bool := do
  return (← Host.enter path).isSuccess

end Primitives.FileSystem
