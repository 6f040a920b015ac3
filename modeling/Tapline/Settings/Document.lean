import Tapline.Json.Decode
import Tapline.Json.Printer
import Tapline.Json.Reader
import Tapline.Settings
import Tapline.Storage

/-!
# Settings files

A settings file holds the settings as a JSON document.  Only the version has to
be there.  A file that does not exist stands for the default settings.
-/

namespace Tapline

/-- Why settings could not be read or saved. -/
inductive SettingsError where
  | load (path : String) (error : StorageError)
  | save (path : String) (error : StorageError)
  | unsupportedVersion (found supported : Nat)
deriving DecidableEq, Inhabited

def SettingsError.message : SettingsError → String
  | .load path error =>
      "failed to read settings from " ++ path ++ ": " ++ error.message
  | .save path error =>
      "failed to save settings to " ++ path ++ ": " ++ error.message
  | .unsupportedVersion found supported =>
      "settings version " ++ toString found ++
        " is newer than supported version " ++ toString supported

namespace Settings

/-- The largest length limit a document may set. -/
def largestLimit : Nat := 18446744073709551615

def toJson (settings : Settings) : Json :=
  Json.ofFields [
    ("version", Json.ofNat settings.version),
    ("max_definition_length",
      Json.ofOption Json.ofNat settings.maxDefinitionLength),
    ("log_filter", Json.ofText settings.logFilter),
    ("default_manifest", Json.ofOption Json.ofText settings.defaultManifest)]

def ofJson? (json : Json) : Option Settings := do
  match ← json.fields?
      ["version", "max_definition_length", "log_filter", "default_manifest"] with
  | [version, limit, filter, manifest] =>
      let version ← Json.required? Json.version? version
      let maxDefinitionLength ←
        Json.optional? none (Json.nullable? (Json.nat? largestLimit)) limit
      let logFilter ← Json.optional? defaultLogFilter Json.text? filter
      let defaultManifest ←
        Json.optional? none (Json.nullable? Json.text?) manifest
      some { version, maxDefinitionLength, logFilter, defaultManifest }
  | _ => none

/-- Whether an attempt to read a file shows that there is none. -/
def isMissing : FileError → Bool
  | .notFound | .notFolder | .invalidPath | .nameTooLong => true
  | _ => false

/-- The settings in a file, given what was read from the file. -/
def ofFile (path : String) (read : Except FileError String) :
    Except SettingsError Settings :=
  match read with
  | .error error =>
      if isMissing error then .ok default
      else .error (.load path (.file error))
  | .ok text =>
      match (Json.read? text).bind ofJson? with
      | none => .error (.load path .malformed)
      | some settings =>
          if supportedVersion < settings.version then
            .error (.unsupportedVersion settings.version supportedVersion)
          else
            .ok settings

def load (tree : FileTree) (path : String) : Except SettingsError Settings :=
  ofFile path (tree.readText (Path.ofText path))

/-- Writes a settings file, in a folder that is created if it is missing. -/
def save (settings : Settings) (tree : FileTree) (path : String) :
    Except SettingsError Unit × FileTree :=
  let folders := ((Path.ofText path).folder?.map Path.lineage).getD []
  match tree.makeFolders folders with
  | (.error error, grown) => (.error (.save path (.file error)), grown)
  | (.ok (), grown) =>
      let (result, written) :=
        grown.replaceFile path settings.toJson.pretty.toUTF8
      (result.mapError (.save path), written)

end Settings

end Tapline
