import Tapline.Json.Decode
import Tapline.Json.Printer
import Tapline.Json.Reader
import Tapline.Manifest
import Tapline.Storage

/-!
# Manifest files

A manifest file holds the manifest as a JSON document.  The form of the document
is checked before its version.
-/

namespace Tapline

namespace Kind

def toJson (kind : Kind) : Json :=
  Json.ofText kind.word

/-- The kind that a value spells: its word, or a record with the word as its only
field and nothing in it. -/
def ofJson? : Json → Option Kind
  | .text content => content.bind ofWord?
  | .record [(some word, .null)] => ofWord? word
  | _ => none

end Kind

namespace ManifestEntry

def toJson (entry : ManifestEntry) : Json :=
  Json.ofFields [
    ("name", Json.ofText entry.name),
    ("kind", entry.kind.toJson),
    ("text", Json.ofText entry.text)]

/-- The entry that a value describes.  Without a kind it is a stream. -/
def ofJson? (json : Json) : Option ManifestEntry := do
  match ← json.fields? ["name", "kind", "text"] with
  | [name, kind, text] =>
      let name ← Json.required? Json.text? name
      let kind ← Json.optional? Kind.stream Kind.ofJson? kind
      let text ← Json.required? Json.text? text
      some { name, kind, text }
  | _ => none

end ManifestEntry

namespace Manifest

def toJson (manifest : Manifest) : Json :=
  Json.ofFields [
    ("version", Json.ofNat manifest.version),
    ("definitions", .list (manifest.entries.map ManifestEntry.toJson))]

def ofJson? (json : Json) : Option Manifest := do
  match ← json.fields? ["version", "definitions"] with
  | [version, entries] =>
      let version ← Json.required? Json.version? version
      let entries ← Json.required? (Json.list? ManifestEntry.ofJson?) entries
      some { version, entries }
  | _ => none

/-- The manifest in a file, given what was read from the file. -/
def ofFile (read : Except FileError String) : Except StorageError Manifest :=
  match read with
  | .error error => .error (.file error)
  | .ok text =>
      match (Json.read? text).bind ofJson? with
      | none => .error .malformed
      | some manifest =>
          if supportedVersion < manifest.version then
            .error (.newerManifest manifest.version supportedVersion)
          else
            .ok manifest

def load (tree : FileTree) (path : String) : Except StorageError Manifest :=
  ofFile (tree.readText (Path.ofText path))

def save (manifest : Manifest) (tree : FileTree) (path : String) :
    Except StorageError Unit × FileTree :=
  tree.replaceFile path manifest.toJson.pretty.toUTF8

end Manifest

end Tapline
