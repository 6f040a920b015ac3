import Tapline.Span
import Tapline.Text.Word

/-!
# Channels

A channel connects a pipeline to the outside: a queue, a topic, another
definition, or a tap into the inside of another definition.  A tap may repeat
the kind of its target in front of the name (`tap:stream:main` for `tap:main`);
that segment is an echo and not part of the target.

What is tapped is the definition of a stream, which is a pipeline with channels, or of
a job, which is a single module without channels.
-/

namespace Tapline

/-- What a definition defines, and what a tap taps. -/
inductive Kind where
  | stream
  | job
deriving DecidableEq, Inhabited

namespace Kind

def word : Kind → String
  | .stream => "stream"
  | .job => "job"

def ofWord? : String → Option Kind
  | "stream" => some .stream
  | "job" => some .job
  | _ => none

@[simp] theorem ofWord?_word (kind : Kind) : ofWord? kind.word = some kind := by
  cases kind <;> rfl

end Kind

/-- What a channel connects to. -/
inductive ChannelKind where
  | stream
  | job
  | queue
  | topic
  | tap (target : Kind)
deriving DecidableEq, Inhabited

namespace ChannelKind

/-- The kind of definition that a tap taps. -/
def tapped? : ChannelKind → Option Kind
  | .tap target => some target
  | _ => none

def isTap (kind : ChannelKind) : Bool :=
  kind.tapped?.isSome

/-- The segment that may stand in front of a tap's target. -/
def echo? (kind : ChannelKind) : Option String :=
  kind.tapped?.map Kind.word

/-- The text in front of the target when the channel is written out. -/
def opening : ChannelKind → String
  | .stream => "stream:"
  | .job => "job:"
  | .queue => "queue:"
  | .topic => "topic:"
  | .tap target => "tap:" ++ target.word ++ ":"

/-- The text in front of the target in the name of the channel on the bus. -/
def busOpening : ChannelKind → String
  | .tap .stream => "tap:"
  | .tap .job => "tap:job:"
  | _ => ""

end ChannelKind

/-- The words that open a channel when a colon follows. -/
inductive ChannelKeyword where
  | queue
  | topic
  | stream
  | job
  | tap
deriving DecidableEq, Inhabited

namespace ChannelKeyword

def word : ChannelKeyword → String
  | .queue => "queue"
  | .topic => "topic"
  | .stream => "stream"
  | .job => "job"
  | .tap => "tap"

/-- The keyword that a word spells, in lower case only. -/
def ofWord? : String → Option ChannelKeyword
  | "queue" => some .queue
  | "topic" => some .topic
  | "stream" => some .stream
  | "job" => some .job
  | "tap" => some .tap
  | _ => none

/-- The channel kind that a keyword determines alone; a tap needs the segments
after it. -/
def kind? : ChannelKeyword → Option ChannelKind
  | .queue => some .queue
  | .topic => some .topic
  | .stream => some .stream
  | .job => some .job
  | .tap => none

/-- What a tap with these segments taps: a job if the first of several segments
is the word for it, and otherwise a stream. -/
def tapTarget : List String → Kind
  | first :: _ :: _ =>
      if Text.sameLetters first Kind.job.word then .job else .stream
  | _ => .stream

/-- The kind of the channel with this keyword and these segments. -/
def kindOf (keyword : ChannelKeyword) (segments : List String) : ChannelKind :=
  keyword.kind?.getD (.tap (tapTarget segments))

@[simp] theorem ofWord?_word (keyword : ChannelKeyword) :
    ofWord? keyword.word = some keyword := by
  cases keyword <;> rfl

end ChannelKeyword

/-- One end of a pipeline, such as `queue:orders` or `tap:stream:main.2`. -/
structure Channel where
  kind : ChannelKind
  /-- The name, cut at its colons, with an echo if one was written. -/
  segments : List String
  /-- What is written after the name, each element behind a dot. -/
  index : List String
  span : Span
deriving DecidableEq, Inhabited

namespace Channel

/-- The segments without the echo.  A segment that stands alone is the name of
the target even if it spells the kind. -/
def target (channel : Channel) : List String :=
  match channel.kind.echo?, channel.segments with
  | some echo, first :: second :: rest =>
      if Text.sameLetters first echo then second :: rest else channel.segments
  | _, segments => segments

def targetName (channel : Channel) : String :=
  ":".intercalate channel.target

/-- The name of the tapped definition, for a tap of the given kind. -/
def tappedName? (kind : Kind) (channel : Channel) : Option String :=
  if channel.kind = .tap kind then some channel.targetName else none

def indexText (channel : Channel) : String :=
  String.join (channel.index.map fun element => "." ++ element)

def busName (channel : Channel) : String :=
  channel.kind.busOpening ++ channel.targetName ++ channel.indexText

/-- The full reference, as it is written in a definition. -/
def qualifiedName (channel : Channel) : String :=
  channel.kind.opening ++ channel.targetName ++ channel.indexText

def render (channel : Channel) : Layout → String
  | .canonical => channel.qualifiedName
  | .positions =>
      "(" ++ channel.qualifiedName ++ ":" ++ toString channel.span.start ++ ">" ++
        toString channel.span.stop ++ ")"

/-- What a channel refers to, apart from how and where it was written. -/
structure Meaning where
  kind : ChannelKind
  target : List String
  index : List String
deriving DecidableEq

/-- The meaning leaves out the echo and the position. -/
def meaning (channel : Channel) : Meaning :=
  ⟨channel.kind, channel.target, channel.index⟩

/-- The same reference, perhaps written in another way or place. -/
def SameMeaning (left right : Channel) : Prop :=
  left.meaning = right.meaning

instance (left right : Channel) : Decidable (left.SameMeaning right) :=
  inferInstanceAs (Decidable (_ = _))

def withIndex (channel : Channel) (index : List String) : Channel :=
  { channel with index }

end Channel

end Tapline
