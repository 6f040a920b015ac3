import Tapline.Span
import Tapline.Text.Quoted

/-!
# Modules

A module is one step of a pipeline: a name, perhaps a label, and arguments.
Taps refer to a module by its label, or by its name when it has none.
-/

namespace Tapline

/-- An argument of a module, written `--name=value`. -/
structure Argument where
  name : String
  value : String
  span : Span
deriving DecidableEq, Inhabited

namespace Argument

/-- The argument as text that reads back. -/
def text (argument : Argument) : String :=
  "--" ++ argument.name ++ "=" ++
    String.ofList (Text.writeValue argument.value.toList)

def render (argument : Argument) : Layout → String
  | .canonical => argument.text
  | .positions =>
      argument.text ++ ":" ++ toString argument.span.start ++ ">" ++
        toString argument.span.stop

def entry (argument : Argument) : String × String :=
  (argument.name, argument.value)

end Argument

/-- One step of a pipeline, such as `t1: transform --expression=payload`. -/
structure Module where
  name : String
  label : Option String
  arguments : List Argument
  span : Span
deriving DecidableEq, Inhabited

namespace Module

def labelName (module : Module) : String :=
  module.label.getD module.name

/-- The value of the first argument with the given name. -/
def argument? (module : Module) (name : String) : Option String :=
  (module.arguments.find? (·.name = name)).map Argument.value

/-- The label in front of the module name. -/
def labelText (module : Module) : String :=
  match module.label with
  | some label => label ++ ": "
  | none => ""

def argumentsText (module : Module) : String :=
  String.join (module.arguments.map fun argument => " " ++ argument.text)

def render (module : Module) : Layout → String
  | .canonical => module.labelText ++ module.name ++ module.argumentsText
  | .positions =>
      "(" ++ module.labelText ++ module.name ++ ":" ++
        toString module.span.start ++ ">" ++ toString module.span.stop ++
        module.argumentsText ++ ")"

/-- What a module does, apart from where it was written. -/
structure Meaning where
  name : String
  label : Option String
  arguments : List (String × String)
deriving DecidableEq

/-- The meaning leaves out the positions. -/
def meaning (module : Module) : Meaning :=
  ⟨module.name, module.label, module.arguments.map Argument.entry⟩

/-- The same module, perhaps written in another place. -/
def SameMeaning (left right : Module) : Prop :=
  left.meaning = right.meaning

instance (left right : Module) : Decidable (left.SameMeaning right) :=
  inferInstanceAs (Decidable (_ = _))

end Module

end Tapline
