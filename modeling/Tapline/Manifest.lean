import Tapline.Registry

/-!
# Manifests

A manifest lists definitions in the order in which they are to be deployed, so
that a tap comes after what it taps.
-/

namespace Tapline

/-- A definition as a manifest lists it. -/
structure ManifestEntry where
  name : String
  kind : Kind
  text : String
deriving DecidableEq, Inhabited

/-- A list of definitions to deploy, with the version of its format. -/
structure Manifest where
  version : Nat
  entries : List ManifestEntry
deriving DecidableEq, Inhabited

namespace Manifest

/-- The newest version of the format that can be read. -/
def supportedVersion : Nat := 1

def fileName : String := "definitions.json"

/-- Deploys the entries in order.  An entry that cannot be deployed is reported
and skipped. -/
def deployEntries (registry : Registry) :
    List ManifestEntry → List Failure × Registry
  | [] => ([], registry)
  | entry :: entries =>
      match registry.deploy entry.kind entry.name entry.text with
      | .ok (_, grown) => deployEntries grown entries
      | .error failure =>
          let (failures, last) := deployEntries registry entries
          (failure :: failures, last)

/-- Deploys the manifest into a registry. -/
def deployInto (manifest : Manifest) (registry : Registry) :
    List Failure × Registry :=
  deployEntries registry manifest.entries

/-- The manifest that lists a registry's definitions with their texts. -/
def ofRegistry (registry : Registry) : Manifest :=
  ⟨supportedVersion, registry.definitions.map fun definition =>
    ⟨definition.name, definition.kind, definition.text⟩⟩

end Manifest

end Tapline
