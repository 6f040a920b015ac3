import Tapline.Proofs.Registry.Operations
import Tapline.Proofs.RoundTrip

/-!
# Well-formed registries

In a well-formed registry no name is used twice, and every definition is what
its text spells, within the limit, and resolved.  Every operation that succeeds
leads from a well-formed registry to a well-formed one.
-/

namespace Tapline

namespace Definition

/-- What a registry with the limit demands of a definition, apart from the name
being free. -/
structure Admissible (limit : Option Nat) (definition : Definition) : Prop where
  fits : (Registry.empty limit).excess? definition.text = none
  read : parse definition.kind definition.name definition.text =
    .ok definition.unresolved
  no_self_tap : definition.tapTarget? ≠ some (definition.kind, definition.name)
  resolves : ∃ environment, definition.resolve environment = .ok definition

/-- What the source of a definition asks for. -/
def request? (definition : Definition) : Option Request :=
  definition.parsed.source.bind Channel.request?

theorem tapTarget?_of_request? {definition : Definition} {request : Request}
    (asked : definition.request? = some request) :
    definition.tapTarget? = some (request.kind, request.name) := by
  obtain ⟨channel, source, channelAsked⟩ := Option.bind_eq_some_iff.mp asked
  obtain ⟨kind, -, name⟩ := Channel.request?_eq_some.mp channelAsked
  simp [tapTarget?, source, kind, name, ChannelKind.tapped?]

namespace Admissible

variable {limit : Option Nat} {definition : Definition}

/-- Taps see the labels that were written. -/
theorem labels_tree (admissible : definition.Admissible limit) :
    definition.tree.labels = definition.parsed.labels := by
  obtain ⟨environment, resolves⟩ := admissible.resolves
  obtain ⟨tree, treeResolves, same⟩ := resolve_eq_ok.mp resolves
  have resolved : definition.resolved = some tree := congrArg Definition.resolved same
  simpa [Definition.tree, resolved] using Pipeline.labels_of_resolve treeResolves

theorem parse_text (admissible : definition.Admissible limit) :
    Pipeline.parse definition.kind definition.text = .ok definition.parsed := by
  obtain ⟨parsed, read, -, same⟩ := parse_eq_ok.mp admissible.read
  have tree : definition.parsed = parsed := congrArg Definition.parsed same
  rw [read, tree]

theorem wellFormed (admissible : definition.Admissible limit) :
    definition.parsed.meaning.WellFormed :=
  Pipeline.wellFormed_of_parse admissible.parse_text

/-- Sinks are no taps, so the source alone asks for something. -/
theorem request?_of_mem_channels (admissible : definition.Admissible limit)
    {channel : Channel} (member : channel ∈ definition.parsed.channels)
    {request : Request} (asked : channel.request? = some request) :
    definition.request? = some request := by
  rcases List.mem_append.mp member with source | sink
  · rw [Option.mem_toList] at source
    exact Option.bind_eq_some_iff.mpr ⟨channel, source, asked⟩
  · rw [Option.mem_toList] at sink
    have noTap := admissible.wellFormed.no_tap_of_mem_sink channel sink request.kind
    exact (noTap (Channel.request?_eq_some.mp asked).1).elim

/-- A resolution carries over to where the source has the same answer. -/
theorem resolve_of_answer (admissible : definition.Admissible limit)
    {before after : Environment} {resolved : Definition}
    (same : ∀ request label, definition.request? = some request →
      before.answer? request = some label → after.answer? request = some label)
    (resolves : definition.resolve before = .ok resolved) :
    definition.resolve after = .ok resolved := by
  obtain ⟨tree, treeResolves, rfl⟩ := resolve_eq_ok.mp resolves
  refine resolve_eq_ok.mpr ⟨tree, Pipeline.resolve_of_answer ?_ treeResolves, rfl⟩
  intro channel member request label asked
  exact same request label (admissible.request?_of_mem_channels member asked)

/-- A resolved definition has in its index the label it asked for. -/
theorem source_of_resolve (admissible : definition.Admissible limit)
    {environment : Environment}
    (resolves : definition.resolve environment = .ok definition) {channel : Channel}
    (source : definition.parsed.source = some channel) {request : Request}
    (asked : channel.request? = some request) :
    ∃ label, environment.answer? request = some label ∧
      definition.tree.source = some (channel.withIndex [label]) := by
  obtain ⟨tree, treeResolves, same⟩ := resolve_eq_ok.mp resolves
  have resolved : definition.resolved = some tree := congrArg Definition.resolved same
  obtain ⟨found, sink, sourceResolves, -, rfl⟩ :=
    Pipeline.resolve_eq_ok.mp treeResolves
  rw [source] at sourceResolves
  obtain ⟨labelled, channelResolves, rfl⟩ :=
    Pipeline.resolveChannel?_some_eq_ok.mp sourceResolves
  have short : channel.index.length ≤ 1 :=
    (admissible.wellFormed.of_mem_source channel source).index_length_le
  have noTail : channel.index.tail = [] := by
    rw [← List.length_eq_zero_iff, List.length_tail]
    omega
  rcases Channel.resolve_eq_ok.mp channelResolves with
    ⟨unasked, -⟩ | ⟨other, label, otherAsked, answer, rfl⟩
  · simp [asked] at unasked
  · obtain rfl : request = other := Option.some.inj (asked.symm.trans otherAsked)
    exact ⟨label, answer, by simp [Definition.tree, resolved, noTail]⟩

end Admissible

theorem unresolved_refresh (environment : Environment) (definition : Definition) :
    (definition.refresh environment).unresolved = definition.unresolved := by
  unfold refresh
  cases resolves : definition.resolve environment with
  | error => rfl
  | ok resolved => exact unresolved_of_resolve resolves

theorem name_refresh (environment : Environment) (definition : Definition) :
    (definition.refresh environment).name = definition.name :=
  (congrArg Definition.name (unresolved_refresh environment definition) :)

theorem map_unresolved_refresh (environment : Environment)
    (definitions : List Definition) :
    (definitions.map (·.refresh environment)).map Definition.unresolved =
      definitions.map Definition.unresolved := by
  rw [List.map_map]
  apply List.map_congr_left
  intro definition _
  exact unresolved_refresh environment definition

theorem Admissible.refresh {limit : Option Nat} {definition : Definition}
    (admissible : definition.Admissible limit) (environment : Environment) :
    (definition.refresh environment).Admissible limit := by
  unfold Definition.refresh
  cases resolves : definition.resolve environment with
  | error => exact admissible
  | ok resolved =>
      obtain ⟨tree, -, rfl⟩ := resolve_eq_ok.mp resolves
      exact ⟨admissible.fits, admissible.read, admissible.no_self_tap, environment,
        resolves⟩

end Definition

namespace Registry

def part (registry : Registry) (definitions : List Definition) : Registry :=
  { registry with definitions }

theorem names_resolveAll (registry : Registry) :
    registry.resolveAll.2.names = registry.names := by
  rw [resolveAll_definitions]
  simp [names, Function.comp_def, Definition.name_refresh]

theorem names_replace (registry : Registry) (definition : Definition) :
    (registry.replace definition).names = registry.names := by
  simp only [names, replace, List.map_map]
  apply List.map_congr_left
  intro old _
  by_cases same : old.name = definition.name
  · simp [same]
  · simp [same]

theorem definitions_replace {registry : Registry} (distinct : registry.names.Nodup)
    {earlier later : List Definition} {old new : Definition}
    (order : registry.definitions = earlier ++ old :: later)
    (sameName : new.name = old.name) :
    (registry.replace new).definitions = earlier ++ new :: later := by
  rw [names, order] at distinct
  obtain ⟨absentEarlier, absentLater⟩ := Definition.name_not_mem distinct
  have keeps (definitions : List Definition)
      (absent : old.name ∉ definitions.map Definition.name) :
      (definitions.map fun other =>
        if other.name = new.name then new else other) = definitions := by
    apply (List.map_congr_left _).trans (List.map_id definitions)
    intro other inside
    rw [if_neg]
    · rfl
    · intro same
      exact absent (same.trans sameName ▸ List.mem_map_of_mem inside)
  rw [replace, order, List.map_append, List.map_cons, keeps earlier absentEarlier,
    keeps later absentLater, if_pos sameName.symm]

theorem sublist_of_order {registry : Registry} {earlier later : List Definition}
    (order : registry.definitions = earlier ++ later) :
    earlier.Sublist registry.definitions :=
  order ▸ List.sublist_append_left _ _

/-- Distinct names, each of an admissible definition. -/
structure WellFormed (registry : Registry) : Prop where
  names_nodup : registry.names.Nodup
  admissible : ∀ definition ∈ registry.definitions,
    definition.Admissible registry.limit

theorem wellFormed_empty (limit : Option Nat) : (empty limit).WellFormed :=
  ⟨List.nodup_nil, by simp [empty]⟩

/-- A staged definition is admissible, under the name it was staged with. -/
theorem admissible_of_stage {registry : Registry} {kind : Kind} {name text : String}
    {definition : Definition}
    (staged : registry.stage kind name text = .ok definition) :
    definition.name = name ∧ definition.kind = kind ∧ definition.text = text ∧
      definition.Admissible registry.limit := by
  obtain ⟨fits, read, noSelfTap, resolves⟩ := stage_eq_ok.mp staged
  obtain ⟨parsed, -, -, same⟩ := Definition.parse_eq_ok.mp read
  have sameName : definition.name = name := congrArg Definition.name same
  have sameKind : definition.kind = kind := congrArg Definition.kind same
  have sameText : definition.text = text := congrArg Definition.text same
  subst sameName sameKind sameText
  exact ⟨rfl, rfl, rfl, fits, read, noSelfTap, _, resolves⟩

theorem names_deploy {registry grown : Registry} {kind : Kind} {name text : String}
    {definition : Definition}
    (deployed : registry.deploy kind name text = .ok (definition, grown)) :
    grown.names = registry.names ++ [name] := by
  obtain ⟨-, staged, rfl⟩ := deploy_eq_ok.mp deployed
  obtain ⟨rfl, -, -, -⟩ := admissible_of_stage staged
  simp [names]

namespace WellFormed

variable {registry : Registry}

theorem part (wellFormed : registry.WellFormed) {definitions : List Definition}
    (sublist : definitions.Sublist registry.definitions) :
    (registry.part definitions).WellFormed :=
  ⟨wellFormed.names_nodup.sublist (sublist.map _), fun definition member =>
    wellFormed.admissible definition (sublist.subset member)⟩

theorem extends_part (wellFormed : registry.WellFormed) {definitions : List Definition}
    (sublist : definitions.Sublist registry.definitions) :
    registry.environment.Extends (registry.part definitions).environment := by
  intro request label answer
  obtain ⟨target, member, found⟩ :=
    (answer?_eq_some (wellFormed.part sublist).names_nodup).mp answer
  exact (answer?_eq_some wellFormed.names_nodup).mpr
    ⟨target, sublist.subset member, found⟩

theorem deploy (wellFormed : registry.WellFormed) {kind : Kind} {name text : String}
    {definition : Definition} {grown : Registry}
    (deployed : registry.deploy kind name text = .ok (definition, grown)) :
    grown.WellFormed := by
  obtain ⟨fresh, staged, same⟩ := deploy_eq_ok.mp deployed
  obtain ⟨-, -, -, admissible⟩ := admissible_of_stage staged
  constructor
  · rw [names_deploy deployed]
    refine List.nodup_append.mpr ⟨wellFormed.names_nodup, by simp, ?_⟩
    rintro _ old _ new rfl
    exact fresh (List.mem_singleton.mp new ▸ old)
  · subst same
    intro other member
    rcases List.mem_append.mp member with old | new
    · exact wellFormed.admissible other old
    · rw [List.mem_singleton.mp new]
      exact admissible

theorem undeploy (wellFormed : registry.WellFormed) {name : String}
    {definition : Definition} {smaller : Registry}
    (undeployed : registry.undeploy name = .ok (definition, smaller)) :
    smaller.WellFormed := by
  obtain ⟨-, -, rfl⟩ := undeploy_eq_ok.mp undeployed
  exact wellFormed.part List.filter_sublist

theorem resolveAll (wellFormed : registry.WellFormed) :
    registry.resolveAll.2.WellFormed := by
  constructor
  · rw [names_resolveAll]
    exact wellFormed.names_nodup
  · rw [resolveAll_definitions]
    intro _ member
    obtain ⟨definition, old, rfl⟩ := List.mem_map.mp member
    exact (wellFormed.admissible definition old).refresh _

theorem replace (wellFormed : registry.WellFormed) {definition : Definition}
    (admissible : definition.Admissible registry.limit) :
    (registry.replace definition).WellFormed := by
  constructor
  · rw [names_replace]
    exact wellFormed.names_nodup
  · intro _ member
    obtain ⟨old, inside, rfl⟩ := List.mem_map.mp member
    split
    · exact admissible
    · exact wellFormed.admissible old inside

theorem redeploy (wellFormed : registry.WellFormed) {kind : Kind} {name text : String}
    {report : List Failure} {after : Registry}
    (redeployed : registry.redeploy kind name text = .ok (report, after)) :
    after.WellFormed := by
  obtain ⟨-, definition, staged, resolved⟩ := redeploy_eq_ok.mp redeployed
  obtain ⟨-, -, -, admissible⟩ := admissible_of_stage staged
  have settled := (wellFormed.replace admissible).resolveAll
  rwa [resolved] at settled

end WellFormed

end Registry

/-- What every successful deployment keeps is kept by a whole manifest. -/
theorem Manifest.deployEntries_induction {property : Registry → Prop}
    (deploy : ∀ {registry grown : Registry} {kind name text definition},
      property registry → registry.deploy kind name text = .ok (definition, grown) →
        property grown)
    {registry : Registry} (start : property registry) (entries : List ManifestEntry) :
    property (deployEntries registry entries).2 := by
  induction entries generalizing registry with
  | nil => exact start
  | cons entry entries induction =>
      rw [deployEntries]
      split
      · rename_i deployed
        exact induction (deploy start deployed)
      · exact induction start

end Tapline
