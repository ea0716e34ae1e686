import Primitives.Files.Tree
import Primitives.Text.Parts

/-!
# Resolution of paths

A path text is resolved component by component from the working directory or the root. Symbolic links
on the way are replaced by their targets, up to 40 of them; a link at the end is followed on request
or when a slash stands behind it. A directory that was removed while it was the working directory has
no entries any more but still leads to its parent.

## Main definitions

* `Errno`: the reasons for which a host call fails.
* `Standpoint`: a directory, possibly a removed one.
* `SplitPath`: a path text taken apart.
* `FileTree.walk`: what a path leads to.
-/

namespace Primitives

/-- Why a host call fails. -/
inductive Errno where
  | noEntry
  | busy
  | exists
  | crossDevice
  | notDirectory
  | isDirectory
  | invalid
  | nameTooLong
  | notEmpty
  | tooManyLinks
deriving DecidableEq

namespace Errno

/-- The number of a reason. -/
def code : Errno → Int
  | noEntry => 2
  | busy => 16
  | «exists» => 17
  | crossDevice => 18
  | notDirectory => 20
  | isDirectory => 21
  | invalid => 22
  | nameTooLong => 36
  | notEmpty => 39
  | tooManyLinks => 40

/-- The wording of a reason. -/
def text : Errno → Text
  | noEntry => "No such file or directory"
  | busy => "Device or resource busy"
  | «exists» => "File exists"
  | crossDevice => "Invalid cross-device link"
  | notDirectory => "Not a directory"
  | isDirectory => "Is a directory"
  | invalid => "Invalid argument"
  | nameTooLong => "File name too long"
  | notEmpty => "Directory not empty"
  | tooManyLinks => "Too many levels of symbolic links"

end Errno

/-! ### Directories as standpoints -/

/-- A directory that resolution stands in: `location` holds a directory, and the standpoint is that
directory or, for `removed` greater than zero, one that was removed so many levels below it. -/
structure Standpoint where
  location : Location
  removed : Nat
deriving DecidableEq

namespace Standpoint

/-- A directory of the tree. -/
def live (p : Location) : Standpoint := ⟨p, 0⟩

def root : Standpoint := live []

/-- The parent directory; the root is its own parent. -/
def parent (d : Standpoint) : Standpoint :=
  if d.removed = 0 then live d.location.dropLast else ⟨d.location, d.removed - 1⟩

end Standpoint

/-! ### Paths taken apart -/

/-- The greatest number of bytes of a name and of a path. -/
def nameLimit : Nat := 255

def pathLimit : Nat := 4095

/-- The greatest number of links that one resolution follows. -/
def linkLimit : Nat := 40

/-- A path text taken apart: whether it starts at the root, its components that are not empty, and
whether a slash stands behind the last one. -/
structure SplitPath where
  absolute : Bool
  components : List Text
  slash : Bool
deriving DecidableEq

namespace SplitPath

/-- The components between the slashes of a text, without the empty ones. -/
def splitComponents (p : Text) : List Text :=
  (p.split ['/']).filter (!·.isEmpty)

def ofText (p : Text) : SplitPath :=
  ⟨p.head? == some '/', splitComponents p, p.getLast? == some '/'⟩

/-- The directory that a path starts from. -/
def start (p : SplitPath) (d : Standpoint) : Standpoint :=
  if p.absolute then .root else d

end SplitPath

/-- Whether a name has too many bytes. -/
def isLongName (name : Text) : Bool :=
  nameLimit < (Utf8.encode name).length

/-! ### Walking -/

/-- What a path is resolved for: to look at what it leads to, to look at a link itself, or to open a
file for writing, which may be created. -/
inductive Purpose where
  | look
  | lookAtLink
  | write
deriving DecidableEq

/-- What a path leads to. -/
inductive Target where
  | directory (d : Standpoint)
  | file (p : Location) (mode : Nat) (content : Bytes)
  | link (p : Location) (target : Text)
  | absent (p : Location)
deriving DecidableEq

namespace FileTree

/-- Resolves components from a directory, following at most `links` links. A slash behind the last
component asks for a directory, and no file is created or opened for writing by such a path. -/
def walk (t : FileTree) (purpose : Purpose) (links : Nat) (d : Standpoint)
    (components : List Text) (slash : Bool) : Except Errno Target :=
  match components with
  | [] => .ok (.directory d)
  | name :: rest =>
    let last := rest.isEmpty
    let p := d.location ++ [name]
    if name = ['.'] then t.walk purpose links d rest slash
    else if name = ['.', '.'] then t.walk purpose links d.parent rest slash
    else if last && slash && purpose = .write then .error .isDirectory
    else if d.removed ≠ 0 then .error .noEntry
    else if isLongName name then .error .nameTooLong
    else
      match t.entry? p with
      | none => if last && !slash then .ok (.absent p) else .error .noEntry
      | some (.directory _) => t.walk purpose links (.live p) rest slash
      | some (.file mode content) =>
        if last && !slash then .ok (.file p mode content) else .error .notDirectory
      | some (.link target) =>
        if last && !slash && purpose = .lookAtLink then .ok (.link p target)
        else
          match links with
          | 0 => .error .tooManyLinks
          | links + 1 =>
            let path := SplitPath.ofText target
            t.walk purpose links (path.start d) (path.components ++ rest)
              (slash || (last && path.slash))
termination_by (links, components.length)

/-- What a path text leads to from a directory. -/
def resolve (t : FileTree) (d : Standpoint) (purpose : Purpose) (path : Text) :
    Except Errno Target :=
  if path.isEmpty then .error .noEntry
  else if pathLimit < (Utf8.encode path).length then .error .nameTooLong
  else
    let split := SplitPath.ofText path
    t.walk purpose linkLimit (split.start d) split.components split.slash

/-! ### The last component -/

/-- The last component of a path: none for the root, `.` and `..`, or a name. -/
inductive LastName where
  | root
  | dot
  | dotDot
  | name (n : Text)
deriving DecidableEq

/-- A path resolved up to its last component. -/
structure Parent where
  directory : Standpoint
  last : LastName
  slash : Bool

def lastName : List Text → LastName
  | [] => .root
  | components =>
    let last := components.getLastD []
    if last = ['.'] then .dot else if last = ['.', '.'] then .dotDot else .name last

/-- Resolves a path text up to its last component. -/
def resolveParent (t : FileTree) (d : Standpoint) (path : Text) : Except Errno Parent :=
  if path.isEmpty then .error .noEntry
  else if pathLimit < (Utf8.encode path).length then .error .nameTooLong
  else
    let split := SplitPath.ofText path
    match t.walk .look linkLimit (split.start d) split.components.dropLast true with
    | .ok (.directory parent) => .ok ⟨parent, lastName split.components, split.slash⟩
    | .ok _ => .error .notDirectory
    | .error errno => .error errno

/-- The location of a name in a directory and the entry there, if any. -/
def lookupName (t : FileTree) (d : Standpoint) (name : Text) :
    Except Errno (Location × Option Entry) :=
  if d.removed ≠ 0 then .error .noEntry
  else if isLongName name then .error .nameTooLong
  else
    let p := d.location ++ [name]
    .ok (p, t.entry? p)

end FileTree

end Primitives
