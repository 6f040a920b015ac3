import Tapline.Definition

/-!
# Registries

A registry holds the deployed definitions in the order of their deployment,
each under its own name.  A definition is deployed only if everything it taps
can be found, and removed only if nothing taps it.  Every operation returns
either a new registry or a failure; a failure leaves nothing changed.
-/

namespace Tapline

/-- The deployed definitions, and the length in bytes that texts may have. -/
structure Registry where
  limit : Option Nat
  definitions : List Definition
deriving DecidableEq, Inhabited

namespace Registry

def empty (limit : Option Nat) : Registry := ⟨limit, []⟩

/-- The names in the order of deployment. -/
def names (registry : Registry) : List String :=
  registry.definitions.map Definition.name

def find? (registry : Registry) (name : String) : Option Definition :=
  registry.definitions.find? (·.name = name)

/-- The trees that taps see: those of the definitions of the tapped kind, as
they stand. -/
def environment (registry : Registry) : Environment where
  find? kind name :=
    ((registry.find? name).filter (·.kind = kind)).map Definition.tree

/-- The length of a text that exceeds the limit, together with the limit. -/
def excess? (registry : Registry) (text : String) : Option (Nat × Nat) :=
  let length := text.utf8ByteSize
  registry.limit.bind fun limit =>
    if limit < length then some (length, limit) else none

/-- What a definition would be if it were deployed now. -/
def stage (registry : Registry) (kind : Kind) (name text : String) :
    Except Failure Definition :=
  match registry.excess? text with
  | some (length, limit) => .error (.tooLong name length limit)
  | none => do
      let definition ← Definition.parse kind name text
      if definition.tapTarget? = some (kind, name) then
        .error (.selfTap name)
      else
        definition.resolve registry.environment

/-- Adds a definition under a name that is not in use.  Operations come one after the
other here, so the name is looked up once; `Catalog.deploy` also looks it up where the
definition is added. -/
def deploy (registry : Registry) (kind : Kind) (name text : String) :
    Except Failure (Definition × Registry) :=
  match registry.find? name with
  | some _ => .error (.alreadyExists name)
  | none => do
      let definition ← registry.stage kind name text
      .ok (definition,
        { registry with definitions := registry.definitions ++ [definition] })

/-- The registry with another definition in the place of the one with its
name. -/
def replace (registry : Registry) (definition : Definition) : Registry :=
  { registry with
    definitions := registry.definitions.map fun old =>
      if old.name = definition.name then definition else old }

/-- Resolves every definition against the registry as it is.  A definition that
no longer resolves keeps its tree and is reported. -/
def resolveAll (registry : Registry) : List Failure × Registry :=
  let outcomes := registry.definitions.map fun definition =>
    (definition, definition.resolve registry.environment)
  let failures := outcomes.filterMap fun
    | (_, .error failure) => some failure
    | (_, .ok _) => none
  let definitions := outcomes.map fun
    | (definition, .error _) => definition
    | (_, .ok resolved) => resolved
  (failures, { registry with definitions })

/-- Replaces a definition and resolves all definitions again.  The failures are
those of the definitions that no longer resolve. -/
def redeploy (registry : Registry) (kind : Kind) (name text : String) :
    Except Failure (List Failure × Registry) :=
  match registry.find? name with
  | none => .error (.notFound name)
  | some _ => do
      let definition ← registry.stage kind name text
      .ok (registry.replace definition).resolveAll

/-- The other definitions whose source taps the definition with a name. -/
def dependents (registry : Registry) (name : String) : List String :=
  match registry.find? name with
  | none => []
  | some target =>
      (registry.definitions.filter fun definition =>
        definition.name ≠ name ∧
          definition.tapTarget? = some (target.kind, name)).map Definition.name

/-- Removes a definition that nothing taps. -/
def undeploy (registry : Registry) (name : String) :
    Except Failure (Definition × Registry) :=
  match registry.find? name, registry.dependents name with
  | _, dependent :: others => .error (.inUse name (dependent :: others))
  | none, [] => .error (.notFound name)
  | some definition, [] =>
      .ok (definition,
        { registry with
          definitions := registry.definitions.filter (·.name ≠ name) })

end Registry

end Tapline
