import Tapline.Manifest

/-!
# Catalogs

A catalog is a registry as a program keeps it: each definition is stored under a key,
in the order in which the keys were added.  An operation hands the catalog back with
its answer, also if it fails, and it ends at the first thing that stands in its way.
-/

namespace Tapline

/-- The definition as it resolves, if that is not what it was. -/
def Definition.renewed? (environment : Environment) (definition : Definition) :
    Option Definition :=
  match definition.resolve environment with
  | .ok resolved => if resolved = definition then none else some resolved
  | .error _ => none

/-- The stored definitions with their keys, and the length in bytes that texts may have. -/
structure Catalog where
  limit : Option Nat
  entries : List (String × Definition)
deriving DecidableEq, Inhabited

namespace Catalog

def empty (limit : Option Nat) : Catalog := ⟨limit, []⟩

def keys (catalog : Catalog) : List String :=
  catalog.entries.map Prod.fst

/-- The definitions without their keys. -/
def registry (catalog : Catalog) : Registry :=
  ⟨catalog.limit, catalog.entries.map Prod.snd⟩

def find? (catalog : Catalog) (key : String) : Option Definition :=
  catalog.entries.lookup key

def contains (catalog : Catalog) (key : String) : Bool :=
  (catalog.find? key).isSome

/-- The trees that taps see: those stored under the tapped name, if they are of the
tapped kind. -/
def environment (catalog : Catalog) : Environment where
  find? kind name :=
    ((catalog.find? name).filter (·.kind = kind)).map Definition.tree

/-- Stores a definition in the place of the one with the key, or behind all others. -/
def insert (catalog : Catalog) (key : String) (definition : Definition) : Catalog :=
  { catalog with entries := Definition.putEntry catalog.entries (key, definition) }

/-- Stores a definition under its name if something is stored there. -/
def update (catalog : Catalog) (definition : Definition) : Catalog :=
  { catalog with
    entries := catalog.entries.map fun (key, old) =>
      (key, if key = definition.name then definition else old) }

def remove (catalog : Catalog) (key : String) : Catalog :=
  { catalog with entries := catalog.entries.filter (·.1 ≠ key) }

/-- What a definition would be if it were deployed now. -/
def stage (catalog : Catalog) (kind : Kind) (name text : String) :
    Except Failure Definition :=
  match catalog.registry.excess? text with
  | some (length, limit) => .error (.tooLong name length limit)
  | none => do
      let definition ← Definition.parse kind name text
      if definition.tapTarget? = some (kind, name) then
        .error (.selfTap name)
      else
        definition.resolve catalog.environment

/-- Stores a definition under a name that is not in use. -/
def deploy (catalog : Catalog) (kind : Kind) (name text : String) :
    Except Failure Definition × Catalog :=
  if catalog.contains name then
    (.error (.alreadyExists name), catalog)
  else
    match catalog.stage kind name text with
    | .error failure => (.error failure, catalog)
    | .ok definition =>
        -- The name may have been taken while the definition was staged.
        if catalog.contains name then
          (.error (.alreadyExists name), catalog)
        else
          (.ok definition, catalog.insert name definition)

/-- Resolves every definition against the catalog as it is, and then stores those that
came out different. -/
def resolveAll (catalog : Catalog) : List Failure × Catalog :=
  let definitions := catalog.registry.definitions
  let failures := definitions.filterMap fun definition =>
    match definition.resolve catalog.environment with
    | .error failure => some failure
    | .ok _ => none
  let updates := definitions.filterMap (·.renewed? catalog.environment)
  (failures, updates.foldl update catalog)

/-- Stores another definition under a name that is in use, and resolves all again. -/
def redeploy (catalog : Catalog) (kind : Kind) (name text : String) :
    Except Failure (List Failure) × Catalog :=
  if ¬ catalog.contains name then
    (.error (.notFound name), catalog)
  else
    match catalog.stage kind name text with
    | .error failure => (.error failure, catalog)
    | .ok definition =>
        let (report, resolved) := (catalog.insert name definition).resolveAll
        (.ok report, resolved)

/-- The names of the other definitions whose source taps what is stored under a name. -/
def dependents (catalog : Catalog) (name : String) : List String :=
  match catalog.find? name with
  | none => []
  | some target =>
      (catalog.registry.definitions.filter fun definition =>
        definition.name ≠ name ∧
          definition.tapTarget? = some (target.kind, name)).map Definition.name

/-- Removes what is stored under a name, unless something taps it. -/
def undeploy (catalog : Catalog) (name : String) :
    Except Failure Definition × Catalog :=
  match catalog.dependents name with
  | dependent :: others => (.error (.inUse name (dependent :: others)), catalog)
  | [] =>
      match catalog.find? name with
      | none => (.error (.notFound name), catalog)
      | some definition => (.ok definition, catalog.remove name)

/-- Deploys the entries in order, each into what the one before it has left. -/
def deployEntries (catalog : Catalog) : List ManifestEntry → List Failure × Catalog
  | [] => ([], catalog)
  | entry :: entries =>
      let (outcome, next) := catalog.deploy entry.kind entry.name entry.text
      let (failures, last) := next.deployEntries entries
      match outcome with
      | .ok _ => (failures, last)
      | .error failure => (failure :: failures, last)

end Catalog

end Tapline
