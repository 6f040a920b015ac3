import Tapline.Proofs.Outcome
import Tapline.Proofs.Spelling
import Tapline.Resolution

/-!
# What taps ask for

A tap by position asks its environment for the label at that position of its
target, and nothing else in the environment bears on its resolution.  So a
resolution carries over to every environment that answers the same requests, and
its failure to every environment that knows the same labels.
-/

namespace Tapline

private theorem Text.decimal?_of_isWord {text : String} (isWord : IsWord text.toList) :
    decimal? text = none := by
  unfold decimal?
  generalize text.toList = word at isWord
  cases isWord with
  | intro start _ => simp [isDigit_of_isWordStart start]

/-- What a tap by position asks for: the label there in the target. -/
structure Request where
  kind : Kind
  name : String
  position : Nat
deriving DecidableEq

namespace Environment

/-- The label that was asked for. -/
def answer? (environment : Environment) (request : Request) : Option String :=
  (environment.find? request.kind request.name).bind (·.labelAt? request.position)

/-- Every request answered by `smaller` has the same answer in `larger`. -/
def Extends (larger smaller : Environment) : Prop :=
  ∀ request label, smaller.answer? request = some label →
    larger.answer? request = some label

/-- Every label that is answered is a word, and so does not read as a position. -/
def AnswersWords (environment : Environment) : Prop :=
  ∀ request label, environment.answer? request = some label → Text.IsWord label.toList

/-- Both know the same definitions, each of them with the same labels. -/
def SameLabels (left right : Environment) : Prop :=
  ∀ kind name, (left.find? kind name).map Pipeline.labels =
    (right.find? kind name).map Pipeline.labels

/-- Both know the target of the request with the same labels, or neither knows it. -/
def AgreeOn (left right : Environment) (request : Request) : Prop :=
  (left.find? request.kind request.name).map Pipeline.labels =
    (right.find? request.kind request.name).map Pipeline.labels

end Environment

namespace Channel

/-- Only taps ask for something, and only if they name no label. -/
def request? (channel : Channel) : Option Request := do
  let kind ← channel.kind.tapped?
  let position ← channel.position?
  some ⟨kind, channel.targetName, position⟩

theorem request?_eq_some {channel : Channel} {request : Request} :
    channel.request? = some request ↔
      channel.kind = .tap request.kind ∧
        channel.position? = some request.position ∧
          channel.targetName = request.name := by
  obtain ⟨kind, name, position⟩ := request
  cases tapped : channel.kind <;> cases found : channel.position? <;>
    simp [request?, tapped, found, ChannelKind.tapped?, and_comm]

/-- A channel that asks for nothing stays as it is, and any other gets the label
it asked for. -/
theorem resolve_eq_ok {environment : Environment} {channel resolved : Channel} :
    channel.resolve environment = .ok resolved ↔
      (channel.request? = none ∧ resolved = channel) ∨
        ∃ request label, channel.request? = some request ∧
          environment.answer? request = some label ∧
            resolved = channel.withIndex (label :: channel.index.tail) := by
  cases tapped : channel.kind.tapped? with
  | none => simp [resolve, request?, tapped, eq_comm]
  | some kind =>
      cases asked : channel.position? with
      | none => simp [resolve, request?, tapped, asked, eq_comm]
      | some position =>
          have request : channel.request? =
              some ⟨kind, channel.targetName, position⟩ := by
            simp [request?, tapped, asked]
          cases found : environment.find? kind channel.targetName with
          | none => simp [resolve, Environment.answer?, tapped, asked, request, found]
          | some target =>
              cases labelled : target.labelAt? position with
              | none =>
                  simp [resolve, Environment.answer?, tapped, asked, request, found,
                    labelled]
              | some label =>
                  simp [resolve, Environment.answer?, tapped, asked, request, found,
                    labelled, eq_comm]

theorem exists_withIndex_of_resolve {environment : Environment}
    {channel resolved : Channel}
    (resolves : channel.resolve environment = .ok resolved) :
    ∃ index, resolved = channel.withIndex index := by
  rcases resolve_eq_ok.mp resolves with ⟨-, same⟩ | ⟨request, label, -, -, rfl⟩
  · exact ⟨channel.index, same⟩
  · exact ⟨label :: channel.index.tail, rfl⟩

theorem isResolved_of_request? {channel : Channel} (unasked : channel.request? = none) :
    channel.isResolved = true := by
  cases tapped : channel.kind.tapped? with
  | none => simp [isResolved, ChannelKind.isTap, tapped]
  | some kind =>
      cases asked : channel.position? with
      | none => simp [isResolved, asked]
      | some position => simp [request?, tapped, asked] at unasked

theorem isResolved_of_resolve {environment : Environment}
    (answersWords : environment.AnswersWords) {channel resolved : Channel}
    (resolves : channel.resolve environment = .ok resolved) :
    resolved.isResolved = true := by
  rcases resolve_eq_ok.mp resolves with ⟨unasked, rfl⟩ | ⟨request, label, -, answer, rfl⟩
  · exact isResolved_of_request? unasked
  · have noPosition := Text.decimal?_of_isWord (answersWords request label answer)
    simp [isResolved, withIndex, position?, noPosition]

theorem resolve_of_answer {before after : Environment} {channel resolved : Channel}
    (same : ∀ request label, channel.request? = some request →
      before.answer? request = some label → after.answer? request = some label)
    (resolves : channel.resolve before = .ok resolved) :
    channel.resolve after = .ok resolved := by
  rcases resolve_eq_ok.mp resolves with unasked | ⟨request, label, asked, answer, rfl⟩
  · exact resolve_eq_ok.mpr (.inl unasked)
  · exact resolve_eq_ok.mpr
      (.inr ⟨request, label, asked, same request label asked answer, rfl⟩)

/-- The outcome depends on the labels of the target alone, and so does the problem
that is reported if there is one. -/
theorem resolve_of_agreeOn {left right : Environment} {channel : Channel}
    (same : ∀ request, channel.request? = some request → left.AgreeOn right request) :
    channel.resolve left = channel.resolve right := by
  unfold resolve
  cases tapped : channel.kind.tapped? with
  | none => rfl
  | some kind =>
      cases asked : channel.position? with
      | none => rfl
      | some position =>
          have labels : (left.find? kind channel.targetName).map Pipeline.labels =
              (right.find? kind channel.targetName).map Pipeline.labels :=
            same ⟨kind, channel.targetName, position⟩ (by simp [request?, tapped, asked])
          cases before : left.find? kind channel.targetName with
          | none =>
              rw [before, Option.map_none, eq_comm, Option.map_eq_none_iff] at labels
              simp only [before, labels]
          | some target =>
              rw [before, Option.map_some, eq_comm, Option.map_eq_some_iff] at labels
              obtain ⟨other, after, labels⟩ := labels
              have size : other.modules.length = target.modules.length := by
                simpa [Pipeline.labels] using congrArg List.length labels
              simp only [before, after, Pipeline.labelAt?, labels, size]

end Channel

namespace Pipeline

theorem resolve_of_agreeOn {left right : Environment} {pipeline : Pipeline}
    (same : ∀ channel ∈ pipeline.channels, ∀ request,
      channel.request? = some request → left.AgreeOn right request) :
    pipeline.resolve left = pipeline.resolve right := by
  have channels (channel : Option Channel) (inside : ∀ written ∈ channel,
      written ∈ pipeline.channels) :
      resolveChannel? left channel = resolveChannel? right channel := by
    cases channel with
    | none => rfl
    | some written =>
        have outcome := Channel.resolve_of_agreeOn (same written (inside written rfl))
        simp only [resolveChannel?, outcome]
  have source := channels pipeline.source (by simp_all [Pipeline.channels])
  have sink := channels pipeline.sink (by simp_all [Pipeline.channels])
  simp only [resolve, source, sink]

theorem resolve_of_sameLabels {left right : Environment}
    (same : left.SameLabels right) (pipeline : Pipeline) :
    pipeline.resolve left = pipeline.resolve right :=
  resolve_of_agreeOn fun _ _ request _ => same request.kind request.name

theorem resolveChannel?_some_eq_ok {environment : Environment} {channel : Channel}
    {resolved : Option Channel} :
    resolveChannel? environment (some channel) = .ok resolved ↔
      ∃ found, channel.resolve environment = .ok found ∧ some found = resolved :=
  map_eq_ok

/-- Resolving touches the channels alone. -/
theorem resolve_eq_ok {environment : Environment} {pipeline resolved : Pipeline} :
    pipeline.resolve environment = .ok resolved ↔
      ∃ source sink, resolveChannel? environment pipeline.source = .ok source ∧
        resolveChannel? environment pipeline.sink = .ok sink ∧
          { pipeline with source, sink } = resolved := by
  simp only [resolve, bind_eq_ok, Except.ok.injEq, exists_and_left]

/-- Where only words are labels, nothing is left to do in a resolved tree. -/
theorem isResolved_of_resolve {environment : Environment}
    (answersWords : environment.AnswersWords) {pipeline resolved : Pipeline}
    (resolves : pipeline.resolve environment = .ok resolved) :
    resolved.isResolved = true := by
  have found {written channel : Option Channel}
      (channelResolves : resolveChannel? environment written = .ok channel) :
      ∀ one ∈ channel, one.isResolved = true := by
    intro one member
    cases written with
    | none => cases channelResolves; cases member
    | some written =>
        obtain ⟨result, succeeds, rfl⟩ := resolveChannel?_some_eq_ok.mp channelResolves
        cases member
        exact Channel.isResolved_of_resolve answersWords succeeds
  obtain ⟨source, sink, sourceResolves, sinkResolves, rfl⟩ := resolve_eq_ok.mp resolves
  apply List.all_eq_true.mpr
  intro channel member
  rcases List.mem_append.mp member with inSource | inSink
  · exact found sourceResolves channel (Option.mem_toList.mp inSource)
  · exact found sinkResolves channel (Option.mem_toList.mp inSink)

theorem labels_of_resolve {environment : Environment} {pipeline resolved : Pipeline}
    (resolves : pipeline.resolve environment = .ok resolved) :
    resolved.labels = pipeline.labels := by
  obtain ⟨source, sink, -, -, rfl⟩ := resolve_eq_ok.mp resolves
  rfl

theorem resolveChannel?_of_answer {before after : Environment}
    {channel resolved : Option Channel}
    (same : ∀ written ∈ channel, ∀ request label, written.request? = some request →
      before.answer? request = some label → after.answer? request = some label)
    (resolves : resolveChannel? before channel = .ok resolved) :
    resolveChannel? after channel = .ok resolved := by
  cases channel with
  | none => exact resolves
  | some written =>
      obtain ⟨found, channelResolves, rfl⟩ := resolveChannel?_some_eq_ok.mp resolves
      exact resolveChannel?_some_eq_ok.mpr
        ⟨found, Channel.resolve_of_answer (same written rfl) channelResolves, rfl⟩

theorem resolve_of_answer {before after : Environment} {pipeline resolved : Pipeline}
    (same : ∀ channel ∈ pipeline.channels, ∀ request label,
      channel.request? = some request → before.answer? request = some label →
        after.answer? request = some label)
    (resolves : pipeline.resolve before = .ok resolved) :
    pipeline.resolve after = .ok resolved := by
  obtain ⟨source, sink, sourceResolves, sinkResolves, rfl⟩ := resolve_eq_ok.mp resolves
  refine resolve_eq_ok.mpr ⟨source, sink, ?_, ?_, rfl⟩
  · exact resolveChannel?_of_answer (fun channel member =>
      same channel (by simp_all [channels])) sourceResolves
  · exact resolveChannel?_of_answer (fun channel member =>
      same channel (by simp_all [channels])) sinkResolves

end Pipeline

end Tapline
