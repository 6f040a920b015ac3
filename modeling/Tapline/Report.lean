import Tapline.Definition
import Tapline.Json.Value

/-!
# Reports

Trees, definitions, diagnostics and failures as JSON values, for the programs
that read them.  Every record has its fields in a fixed order.
-/

namespace Tapline

open Json (ofText ofNat ofOption ofTexts ofFields)

def Span.toJson (span : Span) : Json :=
  ofFields [("start", ofNat span.start), ("end", ofNat span.stop)]

/-- The name of a channel kind in reports. -/
def ChannelKind.reportName : ChannelKind → String
  | .stream => "Stream"
  | .job => "Job"
  | .tap .stream => "TapStream"
  | .tap .job => "TapJob"
  | .queue => "Queue"
  | .topic => "Topic"

def Channel.toJson (channel : Channel) : Json :=
  ofFields [
    ("channel_type", ofText channel.kind.reportName),
    ("name_components", ofTexts channel.segments),
    ("indexing_elements", ofTexts channel.index),
    ("span", channel.span.toJson)]

def Argument.toJson (argument : Argument) : Json :=
  ofFields [
    ("name", ofText argument.name),
    ("value", ofText argument.value),
    ("span", argument.span.toJson)]

def Module.toJson (module : Module) : Json :=
  ofFields [
    ("name", ofText module.name),
    ("label", ofOption ofText module.label),
    ("arguments", .list (module.arguments.map Argument.toJson)),
    ("span", module.span.toJson)]

def Pipeline.toJson (pipeline : Pipeline) : Json :=
  ofFields [
    ("name", ofOption ofText pipeline.name),
    ("source", ofOption Channel.toJson pipeline.source),
    ("modules", .list (pipeline.modules.map Module.toJson)),
    ("sink", ofOption Channel.toJson pipeline.sink),
    ("span", pipeline.span.toJson)]

/-- The definition as a record, with the tree as written and as resolved. -/
def Definition.toJson (definition : Definition) : Json :=
  ofFields [
    ("name", ofText definition.name),
    ("kind", ofText definition.kind.word),
    ("text", ofText definition.text),
    ("parsed", definition.parsed.toJson),
    ("resolved", ofOption Pipeline.toJson definition.resolved)]

/-- The name of a part of the work in reports. -/
def ProblemKind.reportName : ProblemKind → String
  | .lexical => "Lexical"
  | .syntactic => "Syntactic"
  | .resolution => "Resolution"

/-- Everything that is needed to show a diagnostic. -/
def Diagnostic.toJson (diagnostic : Diagnostic) : Json :=
  ofFields [
    ("code", ofText diagnostic.problem.code),
    ("kind", ofText diagnostic.problem.kind.reportName),
    ("text", ofText diagnostic.problem.text),
    ("start", ofNat diagnostic.span.start),
    ("end", ofNat diagnostic.span.stop),
    ("arguments", ofTexts diagnostic.problem.arguments)]

namespace Failure

def code : Failure → String
  | .parse _ _ => "Parse"
  | .resolution _ _ => "Resolution"
  | .nameMismatch _ _ => "NameMismatch"
  | .selfTap _ => "SelfTap"
  | .alreadyExists _ => "AlreadyExists"
  | .notFound _ => "NotFound"
  | .inUse _ _ => "InUse"
  | .tooLong _ _ _ => "TooLong"
  | .storage _ => "Storage"

def detail : Failure → Json
  | .parse name diagnostic | .resolution name diagnostic =>
      ofFields [("name", ofText name), ("diagnostic", diagnostic.toJson)]
  | .nameMismatch name declared =>
      ofFields [("name", ofText name), ("declared", ofText declared)]
  | .selfTap name | .alreadyExists name | .notFound name =>
      ofFields [("name", ofText name)]
  | .inUse name dependents =>
      ofFields [("name", ofText name), ("dependents", ofTexts dependents)]
  | .tooLong name length limit =>
      ofFields [("name", ofText name), ("length", ofNat length),
        ("limit", ofNat limit)]
  | .storage message => ofFields [("message", ofText message)]

def toJson (failure : Failure) : Json :=
  ofFields [("code", ofText failure.code), ("detail", failure.detail)]

end Failure

end Tapline
