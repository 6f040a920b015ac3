import Tapline.Proofs.Display

/-!
# Resolution is final

A tree in which every tap names a label asks its environment for nothing, so it
resolves to itself everywhere, and no other tree resolves where nothing is defined.
The labels of trees that were read are words.  None of them is taken for a position
later, and so what has been resolved among such trees stays as it is.
-/

namespace Tapline

namespace Channel

theorem isResolved_iff_request? {channel : Channel} :
    channel.isResolved = true ↔ channel.request? = none := by
  constructor
  · intro resolved
    cases tapped : channel.kind.tapped? with
    | none => simp [request?, tapped]
    | some kind =>
        have noPosition : channel.position? = none := by
          simpa [isResolved, ChannelKind.isTap, tapped] using resolved
        simp [request?, noPosition]
  · exact isResolved_of_request?

theorem resolve_of_isResolved {channel : Channel} (resolved : channel.isResolved = true)
    (environment : Environment) : channel.resolve environment = .ok channel :=
  resolve_eq_ok.mpr (.inl ⟨isResolved_iff_request?.mp resolved, rfl⟩)

/-- Where nothing is defined, whoever asks for something gets no answer. -/
theorem isResolved_of_resolve_empty {channel resolved : Channel}
    (resolves : channel.resolve .empty = .ok resolved) : channel.isResolved = true := by
  rcases resolve_eq_ok.mp resolves with ⟨unasked, -⟩ | ⟨request, label, -, answer, -⟩
  · exact isResolved_of_request? unasked
  · cases answer

end Channel

namespace Pipeline

theorem isResolved_iff {pipeline : Pipeline} :
    pipeline.isResolved = true ↔
      (∀ channel ∈ pipeline.source, channel.isResolved = true) ∧
        ∀ channel ∈ pipeline.sink, channel.isResolved = true := by
  simp [isResolved, channels]

private theorem resolveChannel?_of_isResolved {written : Option Channel}
    (resolved : ∀ channel ∈ written, channel.isResolved = true)
    (environment : Environment) :
    resolveChannel? environment written = .ok written := by
  cases written with
  | none => rfl
  | some channel =>
      have same := channel.resolve_of_isResolved (resolved channel rfl) environment
      exact resolveChannel?_some_eq_ok.mpr ⟨channel, same, rfl⟩

theorem resolve_of_isResolved {pipeline : Pipeline}
    (resolved : pipeline.isResolved = true) (environment : Environment) :
    pipeline.resolve environment = .ok pipeline := by
  obtain ⟨source, sink⟩ := isResolved_iff.mp resolved
  exact resolve_eq_ok.mpr ⟨pipeline.source, pipeline.sink,
    resolveChannel?_of_isResolved source environment,
    resolveChannel?_of_isResolved sink environment, rfl⟩

theorem isResolved_of_resolve_empty {pipeline resolved : Pipeline}
    (resolves : pipeline.resolve .empty = .ok resolved) :
    pipeline.isResolved = true := by
  have ends {written found : Option Channel}
      (channelResolves : resolveChannel? .empty written = .ok found) :
      ∀ channel ∈ written, channel.isResolved = true := by
    rintro channel rfl
    obtain ⟨result, succeeds, -⟩ := resolveChannel?_some_eq_ok.mp channelResolves
    exact Channel.isResolved_of_resolve_empty succeeds
  obtain ⟨source, sink, sourceResolves, sinkResolves, -⟩ := resolve_eq_ok.mp resolves
  exact isResolved_iff.mpr ⟨ends sourceResolves, ends sinkResolves⟩

/-- A tree has nothing left to resolve exactly if it resolves to itself everywhere, and
exactly if it resolves where nothing is defined.  Every tree that was resolved among
trees that were read has nothing left to resolve, and so resolving it again, there or
elsewhere, returns the same tree. -/
theorem resolve_final (pipeline : Pipeline) :
    (pipeline.isResolved = true ↔
      ∀ environment, pipeline.resolve environment = .ok pipeline) ∧
    (pipeline.isResolved = true ↔
      ∃ resolved, pipeline.resolve .empty = .ok resolved) ∧
    ∀ environment resolved, environment.Parsed →
      pipeline.resolve environment = .ok resolved →
        resolved.isResolved = true ∧ ∀ other, resolved.resolve other = .ok resolved := by
  refine ⟨⟨resolve_of_isResolved, ?_⟩, ⟨?_, ?_⟩, ?_⟩
  · exact fun everywhere => isResolved_of_resolve_empty (everywhere .empty)
  · exact fun resolved => ⟨pipeline, resolve_of_isResolved resolved .empty⟩
  · rintro ⟨resolved, resolves⟩
    exact isResolved_of_resolve_empty resolves
  · intro environment resolved parsed resolves
    have isResolved := isResolved_of_resolve parsed.answersWords resolves
    exact ⟨isResolved, resolve_of_isResolved isResolved⟩

/-- A tap that names its target with an echo and the third module by `02`.  The label
found there is the name of the module, which has none of its own. -/
theorem resolve_final_audit :
    let tap (index : String) : Channel :=
      ⟨.tap .stream, ["stream", "main"], [index], ⟨0, 18⟩⟩
    let log : Module := ⟨"log", none, [], ⟨21, 24⟩⟩
    let audit (index : String) : Pipeline :=
      ⟨none, some (tap index), [log], none, ⟨0, 24⟩⟩
    let main : Pipeline :=
      ⟨none, none, [⟨"http", none, [], ⟨0, 4⟩⟩, ⟨"transform", some "t", [], ⟨7, 19⟩⟩,
        ⟨"file", none, [], ⟨22, 26⟩⟩], none, ⟨0, 26⟩⟩
    let environment : Environment :=
      ⟨fun kind name => if kind = .stream ∧ name = "main" then some main else none⟩
    Pipeline.parse .stream "tap:stream:main.02 > log" = .ok (audit "02") ∧
      environment.Parsed ∧ (audit "02").resolve environment = .ok (audit "file") ∧
        (audit "file").isResolved = true ∧
          ∀ other, (audit "file").resolve other = .ok (audit "file") := by
  intro tap log audit main environment
  have read : Pipeline.parse .stream "tap:stream:main.02 > log" = .ok (audit "02") :=
    eq_ok_of_toOption (by decide +kernel)
  have mainRead : Pipeline.parse .stream "http | t: transform | file" = .ok main :=
    eq_ok_of_toOption (by decide +kernel)
  have parsed : environment.Parsed := by
    intro kind name tree found
    obtain ⟨-, rfl⟩ : (kind = .stream ∧ name = "main") ∧ main = tree := by
      simpa [environment] using found
    exact ⟨.stream, "http | t: transform | file", mainRead⟩
  have resolves : (audit "02").resolve environment = .ok (audit "file") :=
    eq_ok_of_toOption (by decide +kernel)
  obtain ⟨-, -, final⟩ := resolve_final (audit "02")
  exact ⟨read, parsed, resolves, final environment _ parsed resolves⟩

end Pipeline

end Tapline
