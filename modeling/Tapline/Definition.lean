import Tapline.Failure
import Tapline.Pipeline.Parser
import Tapline.Resolution

/-!
# Definitions

A definition keeps a name, its text, the tree the text spells, and, once it has
been resolved, the tree in which every tap names a label.  Resolving always
starts from the tree as written, so a changed target is noticed.
-/

namespace Tapline

/-- A named definition. -/
structure Definition where
  name : String
  kind : Kind
  text : String
  parsed : Pipeline
  resolved : Option Pipeline
deriving DecidableEq, Inhabited

namespace Definition

/-- The definition with the given name and text.  A name declared in the text
has to be the same one. -/
def parse (kind : Kind) (name text : String) : Except Failure Definition :=
  match Pipeline.parse kind text with
  | .error diagnostic => .error (.parse name diagnostic)
  | .ok parsed =>
      match parsed.name with
      | some declared =>
          if declared = name then
            .ok ⟨name, kind, text, parsed, none⟩
          else
            .error (.nameMismatch name declared)
      | none => .ok ⟨name, kind, text, parsed, none⟩

def resolve (environment : Environment) (definition : Definition) :
    Except Failure Definition :=
  match definition.parsed.resolve environment with
  | .ok resolved => .ok { definition with resolved := some resolved }
  | .error diagnostic => .error (.resolution definition.name diagnostic)

/-- The tree as it stands: resolved if it has been, and otherwise as written. -/
def tree (definition : Definition) : Pipeline :=
  definition.resolved.getD definition.parsed

/-- Whether the definition has been resolved. -/
def isResolved (definition : Definition) : Bool :=
  definition.resolved.isSome

/-- What the source taps, by kind and name. -/
def tapTarget? (definition : Definition) : Option (Kind × String) := do
  let source ← definition.parsed.source
  let kind ← source.kind.tapped?
  some (kind, source.targetName)

/-- Adds an entry at the end, or replaces the value of the entry with the same
name in its place. -/
def putEntry {Value : Type} (entries : List (String × Value)) (entry : String × Value) :
    List (String × Value) :=
  if entries.any (·.1 = entry.1) then
    entries.map fun old => if old.1 = entry.1 then entry else old
  else
    entries ++ [entry]

/-- The arguments of the module with a label, by name. -/
def arguments? (definition : Definition) (label : String) :
    Option (List (String × String)) :=
  (definition.tree.moduleLabeled? label).map fun module =>
    (module.arguments.map Argument.entry).foldl putEntry []

/-- The definition as text that declares its name. -/
def display (definition : Definition) : String :=
  match definition.tree.name with
  | some _ => definition.tree.text
  | none => definition.name ++ " = " ++ definition.tree.text

end Definition

end Tapline
