import Primitives.Files.FileSystem
import Primitives.Library.Operation
import Primitives.Session.Settings

/-!
# File operations

The operations on files and paths that programs call by name. Texts of files go through the encoding
that the settings name, which are looked up before the host is asked for anything.

## Main definitions

* `fileOperations`: the operations.
-/

namespace Primitives

open Arguments

variable [Surroundings]

/-- A step of the host with the encoding of the settings. -/
def withEncoding {α : Type} (step : Text → HostM (Except EncodingFault α)) : Action α := do
  let encoding := (← Action.settings).fileEncoding
  Action.ofExcept .encoding (← Action.onHost (step encoding))

/-- A list of texts as a value. -/
def textsValue (items : List Text) : Value :=
  .list (items.map .text)

/-- An operation on a path that asks the host. -/
def onPath {α : Type} (name remark : String) (toValue : α → Value) (step : Text → HostM α) :
    Operation :=
  .acting name remark do return toValue <$> Action.onHost (step (← text))

/-- An operation that makes a text of a path. -/
def pathPart (name remark : String) (f : Text → Text) : Operation :=
  .plain name remark do return .text (f (← text))

/-- The absolute form of a path. -/
def absolutePath (path : Text) : Action Value := do
  return .text (← Action.ofExcept .host (← Action.onHost (Host.absolutePath path)))

def fileOperations : List Operation :=
  [.acting "readFile" "Read a whole file

        Args:
            path: File path

        Returns:
            File contents, or None if the file cannot be opened or read" do
      let path ← text
      return (·.elim .null .text) <$> withEncoding (FileSystem.readFile · path),
    .acting "writeFile" "Truncate and overwrite a file" do
      let path ← text
      let content ← text
      return Value.bool <$> withEncoding (FileSystem.writeFile · path content),
    .acting "appendFile" "" do
      let path ← text
      let content ← text
      return Value.bool <$> withEncoding (FileSystem.appendFile · path content),
    .acting "readLines" "Read a file as lines

        Lines are split on '\\n' with one trailing '\\r' removed from each;
        a final terminator does not produce an empty last line.

        Returns:
            List of lines, empty if the file cannot be read" do
      let path ← text
      return textsValue <$> withEncoding (FileSystem.readLines · path),
    .acting "writeLines" "Write lines, each followed by '\\n'" do
      let path ← text
      let lines ← texts
      return Value.bool <$> withEncoding (FileSystem.writeLines · path lines),
    onPath "exists" "" .bool FileSystem.exists,
    onPath "isFile" "" .bool FileSystem.isFile,
    onPath "isDir" "" .bool FileSystem.isDir,
    onPath "fileSize" "Size in bytes of a regular file, -1 for anything else" .int
      FileSystem.fileSize,
    pathPart "extension" "Extension including the dot, '' when there is none" fun path =>
      (PathText.splitExtension path).2,
    pathPart "filename" "" PathText.baseName,
    pathPart "parent" "" PathText.dirName,
    .plain "join" "" do
      let first ← text
      return .text (PathText.join first (← Arguments.textsOf (← rest))),
    .acting "absolute" "" do return absolutePath (← text),
    onPath "mkdir"
      "Create one directory level; fails if the parent is missing or path exists" .bool
      FileSystem.makeDirectory,
    onPath "mkdirp"
      "Create every missing level; True when the directory exists afterwards" .bool
      FileSystem.makeDirectories,
    onPath "remove" "Delete a file or an empty directory" .bool FileSystem.remove,
    onPath "removeAll" "Delete a path recursively

        Returns:
            Number of entries removed, 0 for a nonexistent path" (fun n => .int (Int.ofNat n))
      FileSystem.removeAll,
    .acting "copy" "Copy a file (or a directory tree), overwriting the destination" do
      return Value.bool <$> Action.onHost (FileSystem.copy (← text) (← text)),
    .acting "move"
        "Rename src to dst, replacing dst; falls back to copy-and-delete across devices" do
      return Value.bool <$> Action.onHost (FileSystem.move (← text) (← text)),
    onPath "listDir" "Names of the immediate children, in host order" textsValue
      FileSystem.listDir,
    .acting "cwd" "" do return Value.text <$> Action.onHost FileSystem.workingDirectory,
    onPath "chdir" "" .bool FileSystem.enter]

end Primitives
