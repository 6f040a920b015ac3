import Tapline.Registry

/-!
# Settings

The settings say how long a definition may be and what the command line falls
back on when it is not told.
-/

namespace Tapline

/-- The settings of the compiler and the registry. -/
structure Settings where
  version : Nat
  /-- The length in bytes that a definition may have. -/
  maxDefinitionLength : Option Nat
  /-- Which log messages are shown when nothing else decides it. -/
  logFilter : String
  /-- The manifest to read when none is given. -/
  defaultManifest : Option String
deriving DecidableEq

namespace Settings

/-- The newest version of the format that can be read. -/
def supportedVersion : Nat := 1

/-- The name of the settings file where none is given. -/
def fileName : String := "stream-dsl.json"

/-- The log filter of settings that do not mention one. -/
def defaultLogFilter : String := "warn"

/-- The settings that hold without a settings file. -/
def default : Settings :=
  ⟨supportedVersion, none, defaultLogFilter, none⟩

instance : Inhabited Settings := ⟨default⟩

/-- The empty registry with these settings. -/
def registry (settings : Settings) : Registry :=
  .empty settings.maxDefinitionLength

end Settings

end Tapline
