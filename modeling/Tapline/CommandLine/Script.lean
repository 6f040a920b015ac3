import Tapline.FileTree

/-!
# Scripts

A run of the program reads some files, one after the other, and ends with an
outcome.  A script says which file comes next and how the run goes on with its
content, so that the files may lie anywhere.
-/

namespace Tapline.CommandLine

/-- How a run ended. -/
inductive Status where
  /-- Nothing was found wrong. -/
  | fine
  /-- A definition does not parse or resolve. -/
  | invalid
  /-- The command line or a file cannot be used. -/
  | unusable
deriving DecidableEq, Inhabited

def Status.code : Status → Nat
  | .fine => 0
  | .invalid => 1
  | .unusable => 2

/-- What is left when the program has ended.  `errors` holds what the commands print
themselves, without the log, which warns of every manifest entry that does not deploy and
is written to the same place. -/
structure Outcome where
  status : Status
  output : String
  errors : String
deriving DecidableEq, Inhabited

/-- A run of the program. -/
inductive Script where
  | halt (outcome : Outcome)
  | read (path : String) (next : Except FileError String → Script)

/-- The outcome of a run with the files of a tree. -/
def Script.outcome (tree : FileTree) : Script → Outcome
  | .halt outcome => outcome
  | .read path next => (next (tree.readText (Path.ofText path))).outcome tree

end Tapline.CommandLine
