import Tapline.Json.Value
import Tapline.Settings

/-!
# Schemas

JSON schemas of the settings file and of the manifest file, for editors that
check such files while they are written.
-/

namespace Tapline

/-- The files that have a schema. -/
inductive SchemaTarget where
  | settings
  | manifest
deriving DecidableEq, Inhabited

def SchemaTarget.ofWord? : String → Option SchemaTarget
  | "settings" => some .settings
  | "manifest" => some .manifest
  | _ => none

namespace Schema

open Json (ofText ofTexts ofFields)

def language : String × Json :=
  ("$schema", ofText "http://json-schema.org/draft-07/schema#")

def text : Json :=
  ofFields [("type", ofText "string")]

/-- The keywords of a natural number, in the given integer format. -/
def natural (format : String) : List (String × Json) :=
  [("format", ofText format), ("minimum", .number "0.0")]

def version : Json :=
  ofFields (("type", ofText "integer") :: natural "uint32")

/-- The keyword for a value of the given type or null. -/
def orNull (type : String) : String × Json :=
  ("type", ofTexts [type, "null"])

/-- A reference to a definition in the same schema. -/
def reference (name : String) : Json :=
  ofFields [("$ref", ofText ("#/definitions/" ++ name))]

def settings : Json :=
  ofFields [
    language,
    ("title", ofText "DslSettings"),
    ("description", ofText "Compiler and registry settings, stored as JSON."),
    ("type", ofText "object"),
    ("required", ofTexts ["version"]),
    ("properties", ofFields [
      ("default_manifest", ofFields [
        ("description",
          ofText "Manifest the CLI reads when \x60--manifest\x60 is omitted."),
        ("default", .null),
        orNull "string"]),
      ("log_filter", ofFields [
        ("description",
          ofText ("\x60tracing\x60 filter directive used when neither \x60-v\x60 " ++
            "nor \x60RUST_LOG\x60 is given.")),
        ("default", ofText Settings.defaultLogFilter),
        ("type", ofText "string")]),
      ("max_definition_length", ofFields (
        [("description",
          ofText ("Definitions longer than this many bytes are rejected. " ++
            "None = no limit.")),
         ("default", .null),
         orNull "integer"] ++ natural "uint")),
      ("version", version)])]

def kind : Json :=
  ofFields [
    ("description",
      ofText "Whether a definition describes a long-running stream or a triggered job."),
    ("type", ofText "string"),
    ("enum", ofTexts [Kind.stream.word, Kind.job.word])]

/-- The schema of an entry of the manifest file. -/
def entry : Json :=
  ofFields [
    ("description", ofText "One definition as it appears in a manifest file."),
    ("type", ofText "object"),
    ("required", ofTexts ["name", "text"]),
    ("properties", ofFields [
      ("kind", ofFields [
        ("default", ofText Kind.stream.word),
        ("allOf", .list [reference "DefinitionKind"])]),
      ("name", text),
      ("text", text)])]

def manifest : Json :=
  ofFields [
    language,
    ("title", ofText "Manifest"),
    ("description",
      ofText ("Definitions listed in deployment order: a tap must come after the " ++
        "definition it taps.")),
    ("type", ofText "object"),
    ("required", ofTexts ["definitions", "version"]),
    ("properties", ofFields [
      ("definitions", ofFields [
        ("type", ofText "array"),
        ("items", reference "ManifestEntry")]),
      ("version", version)]),
    ("definitions", ofFields [
      ("DefinitionKind", kind),
      ("ManifestEntry", entry)])]

def ofTarget : SchemaTarget → Json
  | .settings => settings
  | .manifest => manifest

end Schema

end Tapline
