import Tapline.Channel
import Tapline.Module

/-!
# Pipelines

A pipeline is what the text of one definition says: perhaps a name, perhaps a
source, modules in a row, and perhaps a sink.  Two pipelines have the same
meaning when they differ at most in positions and in the echoes of taps.
-/

namespace Tapline

/-- A definition as it was read: `name = source > first | second > sink`. -/
structure Pipeline where
  name : Option String
  source : Option Channel
  modules : List Module
  sink : Option Channel
  span : Span
deriving DecidableEq, Inhabited

namespace Pipeline

def channels (pipeline : Pipeline) : List Channel :=
  pipeline.source.toList ++ pipeline.sink.toList

def labels (pipeline : Pipeline) : List String :=
  pipeline.modules.map Module.labelName

/-- The label of the module at a position. -/
def labelAt? (pipeline : Pipeline) (position : Nat) : Option String :=
  pipeline.labels[position]?

def moduleLabeled? (pipeline : Pipeline) (label : String) : Option Module :=
  pipeline.modules.find? (·.labelName = label)

/-- The signs between the parts of a printed pipeline. -/
def pipeSign : Layout → String
  | .canonical => " | "
  | .positions => "|"

@[inherit_doc pipeSign]
def arrowSign : Layout → String
  | .canonical => " > "
  | .positions => ">"

def render (pipeline : Pipeline) (layout : Layout) : String :=
  let name := match pipeline.name with
    | some name => name ++ " = "
    | none => ""
  let source := match pipeline.source with
    | some channel => channel.render layout ++ arrowSign layout
    | none => ""
  let sink := match pipeline.sink with
    | some channel => arrowSign layout ++ channel.render layout
    | none => ""
  name ++ source ++
    (pipeSign layout).intercalate (pipeline.modules.map (·.render layout)) ++ sink

def text (pipeline : Pipeline) : String :=
  pipeline.render .canonical

/-- What a pipeline does, apart from how and where it was written. -/
structure Meaning where
  name : Option String
  source : Option Channel.Meaning
  modules : List Module.Meaning
  sink : Option Channel.Meaning
deriving DecidableEq

/-- The meaning leaves out positions and echoes. -/
def meaning (pipeline : Pipeline) : Meaning :=
  ⟨pipeline.name, pipeline.source.map Channel.meaning,
    pipeline.modules.map Module.meaning, pipeline.sink.map Channel.meaning⟩

/-- The same pipeline, perhaps written in another way. -/
def SameMeaning (left right : Pipeline) : Prop :=
  left.meaning = right.meaning

instance (left right : Pipeline) : Decidable (left.SameMeaning right) :=
  inferInstanceAs (Decidable (_ = _))

end Pipeline

end Tapline
