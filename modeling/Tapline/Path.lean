/-!
# Paths

A path leads to a file or folder step by step, from the root if it is absolute
and otherwise from the working folder.  Its steps are what stands between the
slashes, so that its text can be put together again.

Some questions about a path are answered from its steps alone, without looking
at any file: what its last name is, and what comes before it.  A step that
leads nowhere does not count then, except a dot at the beginning of a relative
path.
-/

namespace Tapline

/-- One step of a path. -/
inductive PathStep where
  | name (text : String)
  | parent
  | current
  /-- Nothing between two slashes, or after the last one. -/
  | empty
deriving DecidableEq, Inhabited

namespace PathStep

/-- The step that a piece between slashes stands for. -/
def ofText : String → PathStep
  | "" => .empty
  | "." => .current
  | ".." => .parent
  | text => .name text

def text : PathStep → String
  | .name text => text
  | .parent => ".."
  | .current => "."
  | .empty => ""

def name? : PathStep → Option String
  | .name text => some text
  | _ => none

def isIdle : PathStep → Bool
  | .current | .empty => true
  | _ => false

/-- The steps without the idle ones at the end. -/
def dropIdle : List PathStep → List PathStep
  | [] => []
  | step :: steps =>
      match dropIdle steps with
      | [] => if step.isIdle then [] else [step]
      | kept => step :: kept

end PathStep

/-- The way to a file or folder. -/
structure Path where
  absolute : Bool
  steps : List PathStep
deriving DecidableEq, Inhabited

namespace Path

/-- The sign between the steps of a path. -/
def separator : Char := '/'

/-- The path whose steps a text spells, with the slashes between them. -/
def ofPieces (absolute : Bool) (text : List Char) : Path :=
  ⟨absolute, (text.splitOn separator).map fun piece =>
    PathStep.ofText (String.ofList piece)⟩

def ofText (text : String) : Path :=
  match text.toList with
  | [] => ofPieces false []
  | c :: rest =>
      if c = separator then ofPieces true rest else ofPieces false (c :: rest)

def text (path : Path) : String :=
  (if path.absolute then String.singleton separator else "") ++
    (String.singleton separator).intercalate (path.steps.map PathStep.text)

/-- The path without a single character, which leads nowhere. -/
def isEmpty (path : Path) : Bool :=
  !path.absolute && path.steps.all (· = .empty)

/-- Whether only a folder may be found at the end, which a slash there says. -/
def asFolder (path : Path) : Bool :=
  path.steps.getLast? = some .empty

def endsInName (path : Path) : Bool :=
  ((path.steps.filter (· ≠ .empty)).getLast?.bind PathStep.name?).isSome

/-- The steps up to the last one that counts when no file is looked at. -/
def plainSteps (path : Path) : List PathStep :=
  match path.absolute, path.steps with
  | false, .current :: steps => .current :: PathStep.dropIdle steps
  | _, steps => PathStep.dropIdle steps

/-- The name of the file that the path means. -/
def fileName? (path : Path) : Option String :=
  path.plainSteps.getLast?.bind PathStep.name?

/-- The steps to the folder that holds what the path means. -/
def stepsAbove (path : Path) : List PathStep :=
  plainSteps ⟨path.absolute, path.plainSteps.dropLast⟩

/-- The path to the folder that holds what this path means.  It is empty for a
relative path of one step, and the root has none. -/
def folder? (path : Path) : Option Path :=
  if path.plainSteps = [] then none
  else some ⟨path.absolute, path.stepsAbove⟩

/-- The path to another name in the same folder. -/
def withFileName (path : Path) (name : String) : Path :=
  ⟨path.absolute, path.stepsAbove ++ [.name name]⟩

/-- The path itself and the paths to the folders above it, up to the working
folder or the root. -/
def lineage (path : Path) : List Path :=
  let steps := path.plainSteps
  let lengths := (List.range (steps.length + 1)).reverse
  (lengths.map fun length => ⟨path.absolute, steps.take length⟩).filter
    fun folder => folder.plainSteps = folder.steps && !folder.isEmpty

/-- The text of the path to a name inside the folder with the given path. -/
def inside (folder name : String) : String :=
  if folder = "" ∨ folder.toList.getLast? = some separator then folder ++ name
  else folder ++ String.singleton separator ++ name

end Path

end Tapline
