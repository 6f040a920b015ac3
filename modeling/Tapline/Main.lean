import Tapline.CommandLine

/-!
# The program

Carries out the script of a command line with the files of the system.
-/

namespace Tapline.CommandLine

/-- The refusal behind an error of the system. -/
def refusalOf : IO.Error → FileError
  | .noFileOrDirectory _ _ _ => .notFound
  | .inappropriateType _ code _ =>
      if code = 20 then .notFolder else .isFolder
  | .permissionDenied _ _ _ => .denied
  | .invalidArgument _ _ _ => .invalidPath
  | _ => .other

def readFile (path : String) : IO (Except FileError String) := do
  try
    match String.fromUTF8? (← IO.FS.readBinFile path) with
    | some text => pure (.ok text)
    | none => pure (.error .notText)
  catch error =>
    pure (.error (refusalOf error))

def perform : Script → IO Outcome
  | .halt outcome => pure outcome
  | .read path next => do perform (next (← readFile path))

end Tapline.CommandLine

/-- Runs the program with the words of its command line. -/
def main (words : List String) : IO UInt32 := do
  let configured ← IO.getEnv "STREAM_DSL_CONFIG"
  let outcome ←
    Tapline.CommandLine.perform (Tapline.CommandLine.script configured words)
  IO.print outcome.output
  IO.eprint outcome.errors
  return outcome.status.code.toUInt32
