import Tapline.Failure
import Tapline.FileTree

/-!
# Storage

Files are replaced in three moves, so that a reader never sees half of one: the
new content goes into a staging file, the old file becomes the backup, and the
staging file takes its place.  Staging file and backup lie next to the file.
-/

namespace Tapline

/-- Why a file could not be read or written. -/
inductive StorageError where
  /-- The file system refused. -/
  | file (error : FileError)
  /-- The file is no JSON document of the expected form.  Where and in what way is not
  kept, so that the message for this error says no more. -/
  | malformed
  /-- The path does not end in a name. -/
  | notAFilePath (path : String)
  /-- The manifest has a newer format. -/
  | newerManifest (version supported : Nat)
deriving DecidableEq, Inhabited

namespace StorageError

def message : StorageError → String
  | .file error => "I/O error: " ++ error.message
  | .malformed => "JSON error: not a document of the expected form"
  | .notAFilePath path => "not a file path: " ++ path
  | .newerManifest version supported =>
      "Manifest version " ++ toString version ++
        " is newer than supported version " ++ toString supported

/-- The error as a failure of an operation on definitions. -/
def toFailure (error : StorageError) : Failure :=
  .storage error.message

end StorageError

namespace Path

/-- The path to the file next to this one whose name is longer by an ending. -/
def sibling? (path : Path) (ending : String) : Option Path :=
  path.fileName?.map fun name => path.withFileName (name ++ ending)

def staging? (path : Path) : Option Path :=
  path.sibling? ".tmp"

def backup? (path : Path) : Option Path :=
  path.sibling? ".bak"

end Path

namespace FileTree

/-- Moves what is at a path to the backup, if that can be done. -/
def backUp (tree : FileTree) (path backup : Path) : FileTree :=
  if tree.pathExists path then
    (tree.rename path backup).toOption.getD tree
  else
    tree

/-- Replaces a file.  The tree is returned even after an error, because the
staging file may have been written by then. -/
def replaceFile (tree : FileTree) (path : String) (content : ByteArray) :
    Except StorageError Unit × FileTree :=
  let target := Path.ofText path
  match target.staging?, target.backup? with
  | some staging, some backup =>
      match tree.writeFile staging content with
      | .error error => (.error (.file error), tree)
      | .ok staged =>
          let cleared := staged.backUp target backup
          match cleared.rename staging target with
          | .error error => (.error (.file error), cleared)
          | .ok replaced => (.ok (), replaced)
  | _, _ => (.error (.notAFilePath path), tree)

end FileTree

end Tapline
