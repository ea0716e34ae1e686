import Primitives.Error
import Primitives.Files.Request
import Primitives.Surroundings

/-!
# The host

Every request to the host ends with a result that tells the value or the failure. A missing file is
reported for tracing only, all other failures as a warning. The one thing that escapes is an encoding
that is unknown or not meant for texts.

## Main definitions

* `Host.guarded`: a request with its error turned into a failure and reported.
* `Host.readText`, `Host.writeText`: whole files through an encoding.
* `Host.status`, `Host.listNames`, `Host.makeDirectory`, `Host.rename`, …: the other requests.
-/

namespace Primitives

/-- An encoding that does not turn texts into bytes and back. -/
inductive EncodingFault where
  | unknown (name : Text)
  | notForTexts (name : Text) (verb : Text)
deriving DecidableEq

/-- The wording of an encoding fault. -/
def EncodingFault.message : EncodingFault → Text
  | unknown name => "unknown encoding: " ++ name
  | notForTexts name verb =>
    "'" ++ name ++ "' is not a text encoding; use codecs." ++ verb
      ++ "() to handle arbitrary codecs"

/-- The character set of the encoding that a name stands for; `verb` is what it is needed for. -/
def Charset.named [Surroundings] (name verb : Text) : Except EncodingFault Charset :=
  match Surroundings.encoding? name with
  | some (.text charset) => .ok charset
  | some .other => .error (.notForTexts name verb)
  | none => .error (.unknown name)

/-- A state step of the host. -/
abbrev HostM := StateM Host

namespace Host

/-- A host with the given disk. -/
def ofDisk (disk : Disk) : Host :=
  ⟨disk, false, []⟩

/-! ### Reporting -/

/-- Adds a record of the host. -/
def report (level : Level) (message : Text) : HostM Unit :=
  modify fun host => { host with log := host.log ++ [⟨Request.hostLogger, level, message⟩] }

/-- The failure that an error of an operation on a path amounts to, and its record. -/
def failureOf (operation path : Text) (e : HostError) : HostFailure × Level × Text :=
  let subject := operation ++ [' '] ++ path
  if e.isNotFound then
    (⟨.notFound, e.message, operation, e.code?⟩, .debug, subject ++ ": not found")
  else if e = .embeddedNull then
    (⟨.invalidArgument, e.message, operation, none⟩, .warning,
      operation ++ [' '] ++ path.quoted ++ ": invalid argument: " ++ e.message)
  else
    (⟨.ioFailure, e.message, operation, e.code?⟩, .warning,
      subject ++ " failed: " ++ e.message)

/-- Runs a request; an error becomes a failure and is reported. -/
def guarded {α : Type} (operation path : Text) (request : Request α) : HostM (HostResult α) := do
  match ← request.run with
  | .ok a => return .success a operation
  | .error e =>
    let (failure, level, message) := failureOf operation path e
    report level message
    return .failure failure

/-- The failure of a text conversion, reported. -/
def conversionFailure {α : Type} (operation path message : Text) : HostM (HostResult α) := do
  report .warning (operation ++ [' '] ++ path ++ ": cannot convert text: " ++ message)
  return .failure ⟨.conversionFailure, message, operation, none⟩

/-! ### File contents -/

/-- The bytes of a file. -/
def readBytes (path : Text) : HostM (HostResult Bytes) :=
  guarded "read" path (Request.look [path] (·.readBytes path))

/-- The text of a file; an empty file is read without its encoding. -/
def readText [Surroundings] (path encoding : Text) : HostM (Except EncodingFault (HostResult Text)) := do
  match ← readBytes path with
  | .failure f => return .ok (.failure f)
  | .success bytes operation =>
    if bytes.isEmpty then return .ok (.success [] operation)
    match Charset.named encoding "decode" with
    | .error fault => return .error fault
    | .ok charset =>
      match charset.decode bytes with
      | .ok s => return .ok (.success s operation)
      | .error message => return .ok (← conversionFailure operation path message)

/-- Writes a text to a file or behind what the file holds, and gives the number of bytes. The text is
converted before the file is opened. -/
def writeText [Surroundings] (path content encoding : Text) (append : Bool) :
    HostM (Except EncodingFault (HostResult Nat)) := do
  let operation : Text := if append then "append" else "write"
  match Charset.named encoding "encode" with
  | .error fault => return .error fault
  | .ok charset =>
    match charset.encode content with
    | .error message => return .ok (← conversionFailure operation path message)
    | .ok bytes =>
      .ok <$> guarded operation path (do
        Request.change [path] (·.writeBytes path bytes append)
        return bytes.length)

/-! ### Looking -/

def status (path : Text) (follow : Bool) : HostM (HostResult Status) :=
  guarded "stat" path (Request.look [path] (·.status path follow))

def listNames (path : Text) : HostM (HostResult (List Text)) :=
  guarded "listdir" path (Request.look [path] (·.listNames path))

/-- Everything below a directory, entries in front of the directory that they lie in. -/
def walkUpwards (path : Text) : HostM (HostResult (List (Text × Bool))) :=
  guarded "walk" path (Request.walkUpwards path)

def workingPath : HostM (HostResult Text) :=
  guarded "getcwd" "." (Request.look [] (·.workingPath))

/-- The absolute form of a path; a relative one needs the working directory. -/
def absolutePath (path : Text) : HostM (Except HostError Text) :=
  let request : Request Text := do
    if PathText.isAbsolute path then return PathText.normalize path
    else return PathText.absolute (← Request.look [] (·.workingPath)) path
  request.run

/-! ### Changing -/

def makeDirectory (path : Text) : HostM (HostResult Unit) :=
  guarded "mkdir" path (Request.change [path] (·.makeDirectory path))

/-- Creates a directory with its missing parents. -/
def makeDirectories (path : Text) : HostM (HostResult Unit) :=
  guarded "mkdirp" path (Request.makeDirectories true path)

def removeFile (path : Text) : HostM (HostResult Unit) :=
  guarded "unlink" path (Request.change [path] (·.unlink path))

def removeDirectory (path : Text) : HostM (HostResult Unit) :=
  guarded "rmdir" path (Request.change [path] (·.removeDirectory path))

/-- Copies a file and gives the path of the copy. -/
def copyFile (source target : Text) : HostM (HostResult Text) :=
  guarded "copy" source (Request.copyFile source target)

/-- Copies a directory, merging it into an existing one, and gives the path of the copy. -/
def copyTree (source target : Text) : HostM (HostResult Text) :=
  guarded "copytree" source (do
    Request.copyTree true source target
    return target)

/-- Renames an entry; refused when the host is told that it crosses devices. -/
def rename (source target : Text) : HostM (HostResult Unit) := do
  if (← get).refusesRename then
    return .failure ⟨.ioFailure, Errno.crossDevice.text, "rename", some Errno.crossDevice.code⟩
  else guarded "rename" source (Request.renameOn source target)

/-- Moves an entry where renaming is refused, and gives the path that it has then. -/
def moveAcrossDevices (source target : Text) : HostM (HostResult (Option Text)) :=
  guarded "move" source (Request.move source target)

/-- Makes a directory the working directory. -/
def enter (path : Text) : HostM (HostResult Unit) :=
  guarded "chdir" path (Request.change [path] (·.enter path))

end Host

end Primitives
