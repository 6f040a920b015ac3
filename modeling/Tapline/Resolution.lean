import Tapline.Diagnostic
import Tapline.Pipeline

/-!
# Resolution of taps

A tap names another definition and, in its index, a module inside it: by
position, by label, or not at all, which means the first module.  Resolving
turns every position into the label found there.  A tap that names a label is
left as it is, and so is every channel that is no tap.
-/

namespace Tapline

/-- The definitions that taps can refer to. -/
structure Environment where
  find? : Kind → String → Option Pipeline

namespace Environment

def empty : Environment := ⟨fun _ _ => none⟩

end Environment

namespace Channel

/-- The position of the tapped module: that of a missing index is zero, and an
index that is not a number names a label and asks for no position. -/
def position? (channel : Channel) : Option Nat :=
  match channel.index with
  | [] => some 0
  | element :: _ => Text.decimal? element

/-- The problem of a target that is not defined. -/
def unknownTarget (kind : Kind) (name : String) : Problem :=
  match kind with
  | .stream => .unknownStream name
  | .job => .unknownJob name

/-- The channel with the label that its index stands for. -/
def resolve (environment : Environment) (channel : Channel) :
    Except Diagnostic Channel :=
  match channel.kind.tapped?, channel.position? with
  | some kind, some position =>
      let name := channel.targetName
      match environment.find? kind name with
      | none => .error ⟨unknownTarget kind name, channel.span⟩
      | some target =>
          match target.labelAt? position with
          | some label => .ok (channel.withIndex (label :: channel.index.tail))
          | none =>
              let written := channel.index.head?.getD "0"
              .error ⟨.tapIndexOutOfRange name written target.modules.length,
                channel.span⟩
  | _, _ => .ok channel

/-- Whether resolving has nothing left to do. -/
def isResolved (channel : Channel) : Bool :=
  !channel.kind.isTap || channel.position?.isNone

end Channel

namespace Pipeline

/-- Resolves the channel if there is one. -/
def resolveChannel? (environment : Environment) :
    Option Channel → Except Diagnostic (Option Channel)
  | none => .ok none
  | some channel => some <$> channel.resolve environment

/-- The pipeline with its channels resolved, the source first. -/
def resolve (environment : Environment) (pipeline : Pipeline) :
    Except Diagnostic Pipeline := do
  let source ← resolveChannel? environment pipeline.source
  let sink ← resolveChannel? environment pipeline.sink
  .ok { pipeline with source, sink }

def isResolved (pipeline : Pipeline) : Bool :=
  pipeline.channels.all Channel.isResolved

end Pipeline

end Tapline
