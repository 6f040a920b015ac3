import Tapline.Proofs.Registry.Integrity

/-!
# Displayed definitions

A definition is displayed as text that declares its name.  The tree it shows may
be one that nobody wrote, since resolution puts labels of other definitions into
the index of a tap.  These labels are words, so the tree stays well formed, and
what is displayed is read again as the same definition.
-/

namespace Tapline

/-- Every tree that taps can see was read from some text. -/
def Environment.Parsed (environment : Environment) : Prop :=
  ∀ kind name tree, environment.find? kind name = some tree →
    ∃ treeKind text, Pipeline.parse treeKind text = .ok tree

theorem Environment.Parsed.answersWords {environment : Environment}
    (parsed : environment.Parsed) : environment.AnswersWords := by
  intro request label answer
  obtain ⟨tree, found, labelled⟩ := Option.bind_eq_some_iff.mp answer
  obtain ⟨treeKind, text, read⟩ := parsed request.kind request.name tree found
  obtain ⟨module, inside, rfl⟩ := List.mem_map.mp (List.mem_of_getElem? labelled)
  have wellFormed := Pipeline.wellFormed_of_parse read
  exact (wellFormed.of_mem_modules module inside).labelName_isWord

theorem Channel.meaning_wellFormed_of_resolve {environment : Environment}
    (answersWords : environment.AnswersWords) {channel resolved : Channel}
    (wellFormed : channel.meaning.WellFormed)
    (resolves : channel.resolve environment = .ok resolved) :
    resolved.meaning.WellFormed := by
  rcases resolve_eq_ok.mp resolves with ⟨-, rfl⟩ | ⟨request, label, asked, answer, rfl⟩
  · exact wellFormed
  · obtain ⟨tap, -, -⟩ := request?_eq_some.mp asked
    constructor
    · exact wellFormed.target_ne_nil
    · exact wellFormed.target_isSegment
    · intro element member
      rcases List.mem_cons.mp member with rfl | kept
      · exact .inl (answersWords request element answer)
      · exact wellFormed.index_isSegment element (List.mem_of_mem_tail kept)
    · have short : channel.index.length ≤ 1 := wellFormed.index_length_le
      have length : (label :: channel.index.tail).length ≤ 1 := by
        rw [List.length_cons, List.length_tail]
        omega
      exact length
    · intro _
      have isTap : channel.kind.isTap = true := by rw [tap]; rfl
      exact isTap

namespace Pipeline

theorem resolveChannel?_meaning {environment : Environment}
    {property : Channel.Meaning → Prop}
    (keeps : ∀ channel resolved : Channel, property channel.meaning →
      channel.resolve environment = .ok resolved → property resolved.meaning)
    {written resolved : Option Channel}
    (holds : ∀ meaning ∈ written.map Channel.meaning, property meaning)
    (resolves : resolveChannel? environment written = .ok resolved) :
    ∀ meaning ∈ resolved.map Channel.meaning, property meaning := by
  cases written with
  | none =>
      cases resolves
      simp
  | some channel =>
      obtain ⟨found, channelResolves, rfl⟩ := resolveChannel?_some_eq_ok.mp resolves
      intro meaning member
      cases member
      exact keeps channel found (holds channel.meaning rfl) channelResolves

/-- Labels in the place of positions leave a tree well formed. -/
theorem meaning_wellFormed_of_resolve {environment : Environment}
    (answersWords : environment.AnswersWords) {pipeline resolved : Pipeline}
    (wellFormed : pipeline.meaning.WellFormed)
    (resolves : pipeline.resolve environment = .ok resolved) :
    resolved.meaning.WellFormed := by
  obtain ⟨source, sink, sourceResolves, sinkResolves, rfl⟩ := resolve_eq_ok.mp resolves
  have formed (channel resolved : Channel) :
      channel.meaning.WellFormed → channel.resolve environment = .ok resolved →
        resolved.meaning.WellFormed :=
    Channel.meaning_wellFormed_of_resolve answersWords
  have noTap (channel resolved : Channel)
      (plain : ∀ target, channel.meaning.kind ≠ .tap target)
      (channelResolves : channel.resolve environment = .ok resolved) :
      ∀ target, resolved.meaning.kind ≠ .tap target := by
    obtain ⟨index, rfl⟩ := Channel.exists_withIndex_of_resolve channelResolves
    exact plain
  constructor
  · exact wellFormed.name_isWord
  · exact resolveChannel?_meaning formed wellFormed.source_wellFormed sourceResolves
  · exact wellFormed.modules_wellFormed
  · exact wellFormed.modules_ne_nil
  · exact wellFormed.labels_nodup
  · exact resolveChannel?_meaning formed wellFormed.sink_wellFormed sinkResolves
  · exact resolveChannel?_meaning noTap wellFormed.sink_no_tap sinkResolves

theorem Meaning.WellFormed.named {pipeline : Pipeline}
    (wellFormed : pipeline.meaning.WellFormed) {name : String}
    (isWord : Text.IsWord name.toList) :
    { pipeline with name := some name }.meaning.WellFormed :=
  { wellFormed with
    name_isWord := by
      intro declared member
      cases member
      exact isWord }

end Pipeline

namespace Definition

/-- The displayed text is read as a definition of the given kind and name, with the
tree that is displayed. -/
def ReadsBack (kind : Kind) (name : String) (definition : Definition) : Prop :=
  ∃ again, parse kind name definition.display = .ok again ∧
    again.parsed.SameMeaning { definition.tree with name := some name }

/-- The display is the canonical text of the tree with the name declared. -/
theorem display_eq {definition : Definition}
    (declares : ∀ declared ∈ definition.tree.name, declared = definition.name) :
    definition.display = { definition.tree with name := some definition.name }.text := by
  cases declared : definition.tree.name with
  | none =>
      simp [display, declared, Pipeline.text, Pipeline.render, String.append_assoc]
  | some other =>
      obtain rfl := declares other declared
      have same : { definition.tree with name := some definition.name } =
          definition.tree := by
        rw [← declared]
      rw [same]
      simp [display, declared]

theorem readsBack_of_wellFormed {kind : Kind} {definition : Definition} {tree : Pipeline}
    (current : definition.tree = tree) (wellFormed : tree.meaning.WellFormed)
    (isWord : Text.IsWord definition.name.toList)
    (declares : ∀ declared ∈ tree.name, declared = definition.name)
    (plain : kind = .job →
      tree.source = none ∧ tree.sink = none ∧ tree.modules.length ≤ 1) :
    definition.ReadsBack kind definition.name := by
  subst current
  have named := Pipeline.Meaning.WellFormed.named wellFormed isWord
  obtain ⟨again, read, form⟩ := Pipeline.parse_text named
  have same : again.meaning =
      { definition.tree with name := some definition.name }.meaning := by
    rw [← Pipeline.meaning_form again, form, Pipeline.Meaning.meaning_form named]
  have readKind : Pipeline.parse kind definition.display = .ok again := by
    rw [display_eq declares]
    cases kind with
    | stream => exact read
    | job =>
        obtain ⟨noSource, noSink, single⟩ := plain rfl
        refine Pipeline.parse_job_eq_ok.mpr ⟨read, ?_⟩
        rw [same]
        simpa [Pipeline.meaning, noSource, noSink] using single
  have declaredName : again.name = some definition.name :=
    congrArg Pipeline.Meaning.name same
  refine ⟨⟨definition.name, kind, definition.display, again, none⟩, ?_, same⟩
  refine parse_eq_ok.mpr ⟨again, readKind, ?_, rfl⟩
  simp [declaredName]

private theorem plain_of_parse_job {text : String} {parsed : Pipeline}
    (read : Pipeline.parse .job text = .ok parsed) :
    parsed.source = none ∧ parsed.sink = none ∧ parsed.modules.length ≤ 1 := by
  obtain ⟨-, source, sink, single⟩ := Pipeline.parse_job_eq_ok.mp read
  exact ⟨Option.map_eq_none_iff.mp source, Option.map_eq_none_iff.mp sink,
    by simpa [Pipeline.meaning] using single⟩

/-- Under any word as its name, the display of a definition is a definition again,
and so is the display of every resolution among trees that were read.  It has the
tree that was displayed, with the name declared. -/
theorem readsBack_of_parse (kind : Kind) (name text : String)
    (isWord : Text.IsWord name.toList) (definition : Definition)
    (read : parse kind name text = .ok definition) :
    definition.ReadsBack kind name ∧
      ∀ environment resolved, environment.Parsed →
        definition.resolve environment = .ok resolved → resolved.ReadsBack kind name := by
  obtain ⟨parsed, treeRead, declares, rfl⟩ := parse_eq_ok.mp read
  have wellFormed := Pipeline.wellFormed_of_parse treeRead
  constructor
  · have current : (⟨name, kind, text, parsed, none⟩ : Definition).tree = parsed := rfl
    apply readsBack_of_wellFormed current wellFormed isWord declares
    rintro rfl
    exact plain_of_parse_job treeRead
  · intro environment resolved environmentParsed resolves
    obtain ⟨tree, treeResolves, rfl⟩ := resolve_eq_ok.mp resolves
    have treeFormed := Pipeline.meaning_wellFormed_of_resolve
      environmentParsed.answersWords wellFormed treeResolves
    obtain ⟨source, sink, sourceResolves, sinkResolves, rfl⟩ :=
      Pipeline.resolve_eq_ok.mp treeResolves
    have current : (⟨name, kind, text, parsed, some { parsed with source, sink }⟩ :
        Definition).tree = { parsed with source, sink } := rfl
    apply readsBack_of_wellFormed current treeFormed isWord declares
    rintro rfl
    obtain ⟨noSource, noSink, single⟩ := plain_of_parse_job treeRead
    rw [noSource] at sourceResolves
    rw [noSink] at sinkResolves
    cases sourceResolves
    cases sinkResolves
    exact ⟨rfl, rfl, single⟩

/-- A definition called like a keyword that taps a job by position, with a value
that has to be quoted.  The label it is resolved to is a keyword as well. -/
theorem readsBack_of_parse_tapJob :
    let text := "tap:JOB:nightly.00>x:log --1='it''s | so'"
    let module : Module :=
      ⟨"log", some "x", [⟨"1", "it's | so", ⟨25, 41⟩⟩], ⟨19, 41⟩⟩
    let tap : Channel := ⟨.tap .job, ["JOB", "nightly"], ["00"], ⟨0, 18⟩⟩
    let parsed : Pipeline := ⟨none, some tap, [module], none, ⟨0, 41⟩⟩
    let nightly : Pipeline :=
      ⟨some "nightly", none, [⟨"queue", none, [], ⟨10, 15⟩⟩], none, ⟨0, 15⟩⟩
    let environment : Environment :=
      ⟨fun kind name => if kind = .job ∧ name = "nightly" then some nightly else none⟩
    let definition : Definition := ⟨"tap", .stream, text, parsed, none⟩
    let resolved : Definition :=
      { definition with
        resolved := some { parsed with source := some (tap.withIndex ["queue"]) } }
    Text.IsWord "tap".toList ∧ parse .stream "tap" text = .ok definition ∧
      environment.Parsed ∧ definition.resolve environment = .ok resolved ∧
        definition.ReadsBack .stream "tap" ∧ resolved.ReadsBack .stream "tap" := by
  intro text module tap parsed nightly environment definition resolved
  have isWord : Text.IsWord "tap".toList := by decide
  have read : parse .stream "tap" text = .ok definition :=
    eq_ok_of_toOption (by decide +kernel)
  have nightlyRead : Pipeline.parse .job "nightly = queue" = .ok nightly :=
    eq_ok_of_toOption (by decide +kernel)
  have environmentParsed : environment.Parsed := by
    intro kind name tree found
    obtain ⟨-, rfl⟩ : (kind = .job ∧ name = "nightly") ∧ nightly = tree := by
      simpa [environment] using found
    exact ⟨.job, "nightly = queue", nightlyRead⟩
  have resolves : definition.resolve environment = .ok resolved :=
    eq_ok_of_toOption (by decide +kernel)
  obtain ⟨asWritten, asResolved⟩ :=
    readsBack_of_parse .stream "tap" text isWord definition read
  exact ⟨isWord, read, environmentParsed, resolves, asWritten,
    asResolved environment resolved environmentParsed resolves⟩

end Definition

end Tapline
