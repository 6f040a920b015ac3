import Tapline.Path

/-!
# File trees

A file tree holds files and folders without links between them.  Paths are
followed step by step: every step needs a folder to start from, so a path can
lead to a place where nothing is yet, but not beyond it.  Every operation
returns either a new tree or the reason why nothing was changed.
-/

namespace Tapline

/-- Why an operation on files was refused. -/
inductive FileError where
  | notFound
  | isFolder
  | notFolder
  | alreadyExists
  | notEmpty
  | busy
  | invalidPath
  | nameTooLong
  | notText
  | denied
  | other
deriving DecidableEq, Inhabited

def FileError.message : FileError → String
  | .notFound => "No such file or directory (os error 2)"
  | .isFolder => "Is a directory (os error 21)"
  | .notFolder => "Not a directory (os error 20)"
  | .alreadyExists => "File exists (os error 17)"
  | .notEmpty => "Directory not empty (os error 39)"
  | .busy => "Device or resource busy (os error 16)"
  | .invalidPath => "file name contained an unexpected NUL byte"
  | .nameTooLong => "File name too long (os error 36)"
  | .notText => "stream did not contain valid UTF-8"
  | .denied => "Permission denied (os error 13)"
  | .other => "Input/output error (os error 5)"

/-- A place in a tree: the names on the way down from the root. -/
abbrev Location := List String

/-- A file with its content, or a folder with what is in it. -/
inductive Entry where
  | file (content : ByteArray)
  | folder (entries : List (String × Entry))
deriving Inhabited

namespace Entry

/-- What is at a location below an entry. -/
def get? : Location → Entry → Option Entry
  | [], entry => some entry
  | name :: location, .folder entries =>
      (entries.lookup name).bind (get? location)
  | _ :: _, .file _ => none

/-- The entries of a folder with another entry, or none, under a name. -/
def putEntry (name : String) (entry : Option Entry)
    (entries : List (String × Entry)) : List (String × Entry) :=
  entries.filter (·.1 ≠ name) ++ (entry.map (name, ·)).toList

/-- The entry with something else, or nothing, at a location inside it.  If the
location cannot be reached, nothing changes. -/
def put (new : Option Entry) : Location → Entry → Entry
  | [name], .folder entries => .folder (putEntry name new entries)
  | name :: location, .folder entries =>
      match entries.lookup name with
      | some entry =>
          .folder (putEntry name (some (put new location entry)) entries)
      | none => .folder entries
  | _, entry => entry

def isFolder : Entry → Bool
  | .folder _ => true
  | .file _ => false

mutual

/-- Everything below an entry: the text of the path to it, and the content if it
is a file. -/
def listing (above : String) : Entry → List (String × Option ByteArray)
  | .file _ => []
  | .folder entries => listEntries above entries

/-- Everything in and below the entries of a folder. -/
def listEntries (above : String) :
    List (String × Entry) → List (String × Option ByteArray)
  | [] => []
  | (name, .file content) :: entries =>
      (Path.inside above name, some content) :: listEntries above entries
  | (name, .folder inner) :: entries =>
      (Path.inside above name, none) ::
        (listing (Path.inside above name) (.folder inner) ++
          listEntries above entries)

end

end Entry

/-- Files and folders, and the location at which relative paths begin. -/
structure FileTree where
  root : Entry
  here : Location
deriving Inhabited

namespace FileTree

/-- The length in bytes that a name may have. -/
def longestName : Nat := 255

/-- The length in bytes that the text of a path may have. -/
def longestPath : Nat := 4095

def get? (tree : FileTree) (location : Location) : Option Entry :=
  tree.root.get? location

/-- Refuses a location at which there is no folder. -/
def requireFolder (tree : FileTree) (location : Location) :
    Except FileError Unit :=
  match tree.get? location with
  | some (.folder _) => .ok ()
  | some (.file _) => .error .notFolder
  | none => .error .notFound

/-- One step from a location, where there has to be a folder unless the step is
empty. -/
def follow (tree : FileTree) (location : Location) :
    PathStep → Except FileError Location
  | .empty => .ok location
  | .current => do
      tree.requireFolder location
      .ok location
  | .parent => do
      tree.requireFolder location
      .ok location.dropLast
  | .name name => do
      tree.requireFolder location
      if longestName < name.utf8ByteSize then .error .nameTooLong
      else .ok (location ++ [name])

/-- The location to which a path leads.  There need not be anything yet, but
everything before the last step has to be there. -/
def locate (tree : FileTree) (path : Path) : Except FileError Location :=
  if path.text.toList.contains '\x00' then
    .error .invalidPath
  else if longestPath < path.text.utf8ByteSize then
    .error .nameTooLong
  else if path.isEmpty then
    .error .notFound
  else
    path.steps.foldlM tree.follow (if path.absolute then [] else tree.here)

def find (tree : FileTree) (path : Path) : Except FileError Entry := do
  match tree.get? (← tree.locate path) with
  | none => .error .notFound
  | some entry =>
      if path.asFolder && !entry.isFolder then .error .notFolder else .ok entry

def pathExists (tree : FileTree) (path : Path) : Bool :=
  (tree.find path).toOption.isSome

def folderExists (tree : FileTree) (path : Path) : Bool :=
  (tree.find path).toOption.any Entry.isFolder

def readBytes (tree : FileTree) (path : Path) : Except FileError ByteArray := do
  match ← tree.find path with
  | .file content => .ok content
  | .folder _ => .error .isFolder

def readText (tree : FileTree) (path : Path) : Except FileError String := do
  match String.fromUTF8? (← tree.readBytes path) with
  | some text => .ok text
  | none => .error .notText

/-- The tree with something else, or nothing, at a location. -/
def put (tree : FileTree) (location : Location) (entry : Option Entry) :
    FileTree :=
  { tree with root := tree.root.put entry location }

/-- Gives a file new content; a missing file is created. -/
def writeFile (tree : FileTree) (path : Path) (content : ByteArray) :
    Except FileError FileTree := do
  let location ← tree.locate path
  if !path.endsInName || path.asFolder then
    .error .isFolder
  else
    match tree.get? location with
    | some (.folder _) => .error .isFolder
    | _ => .ok (tree.put location (some (.file content)))

def makeFolder (tree : FileTree) (path : Path) : Except FileError FileTree := do
  let location ← tree.locate path
  if path.endsInName && (tree.get? location).isNone then
    .ok (tree.put location (some (.folder [])))
  else
    .error .alreadyExists

/-- Creates the first of the folders, and for that the others if they are
missing.  Every folder is to be in the one listed after it. -/
def makeFolders (tree : FileTree) : List Path → Except FileError Unit × FileTree
  | [] => (.ok (), tree)
  | path :: above =>
      let settle (tree : FileTree) (error : FileError) :
          Except FileError Unit × FileTree :=
        (if tree.folderExists path then .ok () else .error error, tree)
      match tree.makeFolder path with
      | .ok grown => (.ok (), grown)
      | .error .notFound =>
          match tree.makeFolders above with
          | (.error error, grown) => (.error error, grown)
          | (.ok (), grown) =>
              match grown.makeFolder path with
              | .ok grown => (.ok (), grown)
              | .error error => settle grown error
      | .error error => settle tree error

/-- The location of what was at `location`, after what was at `old` has moved to
`new`. -/
def relocate (old new location : Location) : Location :=
  if old.isPrefixOf location then new ++ location.drop old.length else location

/-- Moves an entry to a location at which nothing else will be left. -/
def move (tree : FileTree) (old new : Location) (entry : Entry) : FileTree :=
  let moved := (tree.put old none).put new (some entry)
  { moved with here := relocate old new tree.here }

/-- Moves a file or folder, with all that is in it.  A file may replace a file,
and a folder an empty folder. -/
def rename (tree : FileTree) (old new : Path) : Except FileError FileTree := do
  let source ← tree.locate old
  let target ← tree.locate new
  if !old.endsInName || !new.endsInName then
    .error .busy
  else
    match tree.get? source with
    | none => .error .notFound
    | some entry =>
        if !entry.isFolder && (old.asFolder || new.asFolder) then
          .error .notFolder
        else if source = target then
          .ok tree
        else if source.isPrefixOf target then
          .error .invalidPath
        else if target.isPrefixOf source then
          .error .notEmpty
        else
          match entry, tree.get? target with
          | .file _, some (.folder _) => .error .isFolder
          | .folder _, some (.file _) => .error .notFolder
          | .folder _, some (.folder (_ :: _)) => .error .notEmpty
          | _, _ => .ok (tree.move source target entry)

end FileTree

end Tapline
