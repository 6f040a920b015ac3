import Tapline.Pipeline

/-!
# Trees without positions

The form of a tree is everything in it but the spans.  It is finer than the
meaning, which leaves out the echoes of taps as well, and it is what a
derivation of the grammar determines.
-/

namespace Tapline

namespace Channel

/-- A channel as it is written, wherever that is. -/
structure Form where
  kind : ChannelKind
  segments : List String
  index : List String
deriving DecidableEq

/-- The form leaves out the position. -/
def form (channel : Channel) : Form :=
  ⟨channel.kind, channel.segments, channel.index⟩

def Form.at (form : Form) (span : Span) : Channel :=
  ⟨form.kind, form.segments, form.index, span⟩

def Form.meaning (form : Form) : Meaning :=
  (form.at .origin).meaning

/-- The meaning of a channel depends on its form alone. -/
theorem meaning_form (channel : Channel) : channel.form.meaning = channel.meaning :=
  rfl

end Channel

def Module.Meaning.labelName (module : Module.Meaning) : String :=
  module.label.getD module.name

@[simp] theorem Module.labelName_meaning (module : Module) :
    module.meaning.labelName = module.labelName :=
  rfl

theorem Module.argumentNames_meaning (module : Module) :
    module.meaning.arguments.map Prod.fst = module.arguments.map Argument.name := by
  simp [meaning, Argument.entry, Function.comp_def]

namespace Pipeline

/-- A pipeline as it is written, wherever that is. -/
structure Form where
  name : Option String
  source : Option Channel.Form
  modules : List Module.Meaning
  sink : Option Channel.Form
deriving DecidableEq

/-- The form leaves out the positions. -/
def form (pipeline : Pipeline) : Form :=
  ⟨pipeline.name, pipeline.source.map Channel.form,
    pipeline.modules.map Module.meaning, pipeline.sink.map Channel.form⟩

def Form.meaning (form : Form) : Meaning :=
  ⟨form.name, form.source.map Channel.Form.meaning, form.modules,
    form.sink.map Channel.Form.meaning⟩

theorem labels_meaning (pipeline : Pipeline) :
    pipeline.meaning.modules.map Module.Meaning.labelName = pipeline.labels := by
  simp [meaning, labels, Function.comp_def]

/-- The meaning of a pipeline depends on its form alone. -/
theorem meaning_form (pipeline : Pipeline) :
    pipeline.form.meaning = pipeline.meaning := by
  simp [form, Form.meaning, meaning, Function.comp_def, Channel.meaning_form]

end Pipeline

end Tapline
