import Tapline.Proofs.Form
import Tapline.Token

/-!
# The grammar of definitions

The productions of the definition language over tokens, each with the form it
stands for.  They are stated without regard to how a reader goes about them:

* `definition := [name =] [channel >] module (| module)* [> channel]`
* `channel := keyword : segment (: segment)* [. segment]`
* `module := [label :] word (--name = value)*`

Conditions that are not context-free, such as that no label is used twice, are
premises of the production they belong to.
-/

namespace Tapline.Grammar

/-- Any number of phrases in a row. -/
inductive Star (phrase : List Token → α → Prop) : List Token → List α → Prop where
  | nil : Star phrase [] []
  | cons {first more : List Token} {value : α} {values : List α} :
      phrase first value →
      Star phrase more values →
      Star phrase (first ++ more) (value :: values)

/-- A phrase that may be left out. -/
inductive Optional (phrase : List Token → α → Prop) :
    List Token → Option α → Prop where
  | none : Optional phrase [] none
  | some {tokens : List Token} {value : α} :
      phrase tokens value → Optional phrase tokens (some value)

/-- A phrase with a sign in front of it. -/
inductive Behind (sign : Token) (phrase : List Token → α → Prop) :
    List Token → α → Prop where
  | intro {tokens : List Token} {value : α} :
      phrase tokens value → Behind sign phrase (sign :: tokens) value

/-- A phrase with a sign after it. -/
inductive Before (sign : Token) (phrase : List Token → α → Prop) :
    List Token → α → Prop where
  | intro {tokens : List Token} {value : α} :
      phrase tokens value → Before sign phrase (tokens ++ [sign]) value

/-- A single word. -/
inductive Word : List Token → String → Prop where
  | intro (text : String) : Word [.word text] text

/-- A part of a channel name, or an index. -/
inductive Segment : List Token → String → Prop where
  | word (text : String) : Segment [.word text] text
  | number (digits : String) : Segment [.number digits] digits

/-- At least two segments, of which the first is `job` in any letter case. -/
def EchoesJob (segments : List String) : Prop :=
  ∃ first second rest, segments = first :: second :: rest ∧
    first.toList.map Char.toLower = ['j', 'o', 'b']

/-- The kind of channel that a keyword and the segments after it stand for. -/
inductive Denotes : ChannelKeyword → List String → ChannelKind → Prop where
  | queue (segments : List String) : Denotes .queue segments .queue
  | topic (segments : List String) : Denotes .topic segments .topic
  | stream (segments : List String) : Denotes .stream segments .stream
  | job (segments : List String) : Denotes .job segments .job
  | tapJob {segments : List String} :
      EchoesJob segments → Denotes .tap segments (.tap .job)
  | tapStream {segments : List String} :
      ¬EchoesJob segments → Denotes .tap segments (.tap .stream)

/-- Only taps have an index, and at most one. -/
inductive Channel : List Token → Channel.Form → Prop where
  | intro {keyword : ChannelKeyword} {kind : ChannelKind} {first : String}
      {more : List String} {index : Option String}
      {firstTokens moreTokens indexTokens : List Token} :
      Segment firstTokens first →
      Star (Behind .colon Segment) moreTokens more →
      Optional (Behind .dot Segment) indexTokens index →
      (index ≠ none → keyword = .tap) →
      Denotes keyword (first :: more) kind →
      Channel
        (.word keyword.word :: .colon :: (firstTokens ++ moreTokens ++ indexTokens))
        ⟨kind, first :: more, index.toList⟩

/-- A word in front of a colon that does not open a channel. -/
inductive Label : List Token → String → Prop where
  | intro {label : String} :
      (∀ keyword : ChannelKeyword, label ≠ keyword.word) →
      Label [.word label, .colon] label

/-- An argument, whose name is not empty. -/
inductive Argument : List Token → String × String → Prop where
  | intro {name : String} (value : String) :
      name ≠ "" → Argument [.flag name, .equals, .literal value] (name, value)

/-- No two arguments of a module have one name. -/
inductive Module : List Token → Module.Meaning → Prop where
  | intro {label : Option String} (name : String)
      {arguments : List (String × String)}
      {labelTokens argumentTokens : List Token} :
      Optional Label labelTokens label →
      Star Argument argumentTokens arguments →
      (arguments.map Prod.fst).Nodup →
      Module (labelTokens ++ .word name :: argumentTokens) ⟨name, label, arguments⟩

/-- No two modules have one label, and the sink is no tap. -/
inductive Definition : List Token → Pipeline.Form → Prop where
  | intro {name : Option String} {source sink : Option Channel.Form}
      {first : Module.Meaning} {more : List Module.Meaning}
      {nameTokens sourceTokens firstTokens moreTokens sinkTokens : List Token} :
      Optional (Before .equals Word) nameTokens name →
      Optional (Before .arrow Channel) sourceTokens source →
      Module firstTokens first →
      Star (Behind .pipe Module) moreTokens more →
      Optional (Behind .arrow Channel) sinkTokens sink →
      (∀ channel ∈ sink, ∀ target, channel.kind ≠ .tap target) →
      ((first :: more).map Module.Meaning.labelName).Nodup →
      Definition
        (nameTokens ++ sourceTokens ++ firstTokens ++ moreTokens ++ sinkTokens)
        ⟨name, source, first :: more, sink⟩

end Tapline.Grammar
