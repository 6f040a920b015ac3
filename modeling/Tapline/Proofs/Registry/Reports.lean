import Tapline.Proofs.Registry.Reresolution
import Tapline.Proofs.Resolution.Outcomes

/-!
# What a redeployment reports

Replacing a definition changes what a tap is answered only if the tap asks for that
name.  So whatever else fails afterwards had failed before, and is reported once more.
The new definition itself was resolved among the old ones.  It fails at once if it asks
for the definition it has replaced, which then was of the other kind.
-/

namespace Tapline

namespace Definition

private theorem complaint?_eq_some {environment : Environment} {definition : Definition}
    {failure : Failure} :
    definition.complaint? environment = some failure ↔
      ∃ diagnostic, definition.parsed.resolve environment = .error diagnostic ∧
        failure = .resolution definition.name diagnostic := by
  rw [← resolve_eq_error]
  unfold complaint?
  cases definition.resolve environment <;> simp

theorem Admissible.resolve_of_agreeOn {limit : Option Nat} {definition : Definition}
    (admissible : definition.Admissible limit) {left right : Environment}
    (same : ∀ request, definition.request? = some request → left.AgreeOn right request) :
    definition.parsed.resolve left = definition.parsed.resolve right :=
  Pipeline.resolve_of_agreeOn fun _ member request asked =>
    same request (admissible.request?_of_mem_channels member asked)

end Definition

namespace Registry

theorem mem_resolveAll_report {registry : Registry} {failure : Failure} :
    failure ∈ registry.resolveAll.1 ↔
      ∃ definition ∈ registry.definitions, ∃ diagnostic,
        definition.parsed.resolve registry.environment = .error diagnostic ∧
          failure = .resolution definition.name diagnostic := by
  rw [resolveAll_report, List.mem_filterMap]
  simp only [Definition.complaint?_eq_some]

/-- A tap that asks for a name in use, but for the other kind, finds nothing. -/
theorem resolve_of_otherKind {registry : Registry} {name : String}
    {present : Definition} (found : registry.find? name = some present)
    {pipeline : Pipeline} {channel : Channel} {request : Request}
    (source : pipeline.source = some channel)
    (asked : channel.request? = some request) (named : request.name = name)
    (otherKind : request.kind ≠ present.kind) :
    pipeline.resolve registry.environment =
      .error ⟨Channel.unknownTarget request.kind name, channel.span⟩ := by
  obtain ⟨tap, atPosition, targetName⟩ := Channel.request?_eq_some.mp asked
  have asksAt := Channel.position?_eq_some.mp atPosition
  rw [named] at targetName
  have missing : registry.environment.find? request.kind channel.targetName = none := by
    rw [environment_find?, targetName, found, Option.filter_some_neg, Option.map_none]
    simpa [eq_comm] using otherKind
  apply Pipeline.resolve_eq_iff.mpr
  apply Pipeline.ResolvesTo.sourceFails source
  rw [← targetName]
  generalize request.kind = kind at tap missing
  cases kind with
  | stream => exact .unknownStream tap asksAt missing
  | job => exact .unknownJob tap asksAt missing

section Replace

variable {registry : Registry} {added : Definition}

private theorem mem_replace {definition : Definition}
    (inside : definition ∈ (registry.replace added).definitions) :
    definition = added ∨
      (definition ∈ registry.definitions ∧ definition.name ≠ added.name) := by
  obtain ⟨old, member, rfl⟩ := List.mem_map.mp inside
  by_cases same : old.name = added.name
  · exact .inl (if_pos same)
  · rw [if_neg same]
    exact .inr ⟨member, same⟩

private theorem mem_replace_of_ne {definition : Definition}
    (member : definition ∈ registry.definitions)
    (different : definition.name ≠ added.name) :
    definition ∈ (registry.replace added).definitions :=
  List.mem_map.mpr ⟨definition, member, if_neg different⟩

private theorem find?_replace_of_ne (distinct : registry.names.Nodup) {name : String}
    (different : name ≠ added.name) :
    (registry.replace added).find? name = registry.find? name := by
  have stillDistinct : (registry.replace added).names.Nodup := by
    rwa [names_replace]
  apply Option.ext
  intro found
  rw [find?_eq_some stillDistinct, find?_eq_some distinct]
  constructor
  · rintro ⟨inside, named⟩
    rcases mem_replace inside with rfl | ⟨member, -⟩
    · exact (different named.symm).elim
    · exact ⟨member, named⟩
  · rintro ⟨member, rfl⟩
    exact ⟨mem_replace_of_ne member different, rfl⟩

end Replace

/-- What the registry `after` is if a definition has been added in the place of the one
with its name, and everything has been resolved again. -/
structure Renewed (before : Registry) (added : Definition) (after : Registry) :
    Prop where
  wellFormed : after.WellFormed
  renewed : ∀ definition ∈ after.definitions, definition.name = added.name →
    definition.unresolved = added.unresolved
  origin : ∀ definition ∈ after.definitions, definition.name ≠ added.name →
    ∃ old ∈ before.definitions, old.unresolved = definition.unresolved
  kept : ∀ old ∈ before.definitions, old.name ≠ added.name →
    ∃ definition ∈ after.definitions, old.unresolved = definition.unresolved
  /-- Whoever asks for another name is answered as before. -/
  agreeOn : ∀ request, request.name ≠ added.name →
    after.environment.AgreeOn before.environment request

theorem WellFormed.renewed {registry : Registry} (wellFormed : registry.WellFormed)
    {added : Definition} (admissible : added.Admissible registry.limit) :
    registry.Renewed added (registry.replace added).resolveAll.2 := by
  have replaced := wellFormed.replace admissible
  have refreshed (definition : Definition) :=
    Definition.unresolved_refresh (registry.replace added).environment definition
  constructor
  · exact replaced.resolveAll
  · rw [resolveAll_definitions]
    intro _ inside named
    obtain ⟨old, member, rfl⟩ := List.mem_map.mp inside
    rw [Definition.name_refresh] at named
    rcases mem_replace member with rfl | ⟨-, different⟩
    · exact refreshed old
    · exact (different named).elim
  · rw [resolveAll_definitions]
    intro _ inside different
    obtain ⟨old, member, rfl⟩ := List.mem_map.mp inside
    rw [Definition.name_refresh] at different
    rcases mem_replace member with rfl | ⟨before, -⟩
    · exact (different rfl).elim
    · exact ⟨old, before, (refreshed old).symm⟩
  · rw [resolveAll_definitions]
    intro old member different
    exact ⟨_, List.mem_map_of_mem (mem_replace_of_ne member different),
      (refreshed old).symm⟩
  · intro request different
    apply (sameLabels_resolveAll replaced request.kind request.name).trans
    rw [environment_find?, environment_find?,
      find?_replace_of_ne wellFormed.names_nodup different]

/-- Another definition whose source taps the one with the name. -/
def IsDependent (registry : Registry) (name : String) (definition : Definition) : Prop :=
  definition ∈ registry.definitions ∧ definition.name ≠ name ∧
    ∃ kind, definition.tapTarget? = some (kind, name)

/-- Why a failure is reported when the definition with the name is replaced. -/
inductive Reported (before : Registry) (name : String) (after : Registry) :
    Failure → Prop where
  | dependent {definition : Definition} {diagnostic : Diagnostic} :
      after.IsDependent name definition →
      definition.parsed.resolve after.environment = .error diagnostic →
      Reported before name after (.resolution definition.name diagnostic)
  /-- It had failed before, and has nothing to do with the replaced definition. -/
  | unrelated {definition : Definition} {diagnostic : Diagnostic} :
      definition ∈ before.definitions → definition.name ≠ name →
      ¬before.IsDependent name definition →
      definition.parsed.resolve before.environment = .error diagnostic →
      Reported before name after (.resolution definition.name diagnostic)
  /-- The new definition asks for the one that it has replaced. -/
  | itself {definition : Definition} {channel : Channel} {request : Request} :
      after.find? name = some definition → definition.parsed.source = some channel →
      channel.request? = some request → request.name = name →
      Reported before name after
        (.resolution name ⟨Channel.unknownTarget request.kind name, channel.span⟩)

section Renewed

variable {before after : Registry} {added : Definition}

theorem isDependent_iff {name : String} {old definition : Definition}
    (member : old ∈ before.definitions) (inside : definition ∈ after.definitions)
    (same : old.unresolved = definition.unresolved) :
    before.IsDependent name old ↔ after.IsDependent name definition := by
  have name : old.name = definition.name := (congrArg Definition.name same :)
  have taps : old.tapTarget? = definition.tapTarget? :=
    (congrArg Definition.tapTarget? same :)
  simp [IsDependent, member, inside, name, taps]

/-- Whatever does not ask for the name resolves as it did before. -/
theorem Renewed.resolve_eq (renewed : before.Renewed added after)
    {definition : Definition} (inside : definition ∈ after.definitions)
    (elsewhere : ∀ request, definition.request? = some request →
      request.name ≠ added.name) :
    definition.parsed.resolve after.environment =
      definition.parsed.resolve before.environment :=
  (renewed.wellFormed.admissible definition inside).resolve_of_agreeOn
    fun request asked => renewed.agreeOn request (elsewhere request asked)

theorem Renewed.resolve_eq_of_independent (renewed : before.Renewed added after)
    {definition : Definition} (inside : definition ∈ after.definitions)
    (different : definition.name ≠ added.name)
    (independent : ¬after.IsDependent added.name definition) :
    definition.parsed.resolve after.environment =
      definition.parsed.resolve before.environment := by
  refine renewed.resolve_eq inside fun request asked sameName => independent ?_
  exact ⟨inside, different, request.kind,
    sameName ▸ Definition.tapTarget?_of_request? asked⟩

/-- What was resolved among the old definitions fails among the new ones only if it
asks for the one that it has replaced. -/
theorem Renewed.request_of_error (renewed : before.Renewed added after)
    (resolves : added.resolve before.environment = .ok added) {definition : Definition}
    (inside : definition ∈ after.definitions) (named : definition.name = added.name)
    {diagnostic : Diagnostic}
    (fails : definition.parsed.resolve after.environment = .error diagnostic) :
    ∃ channel request, definition.parsed.source = some channel ∧
      channel.request? = some request ∧ request.name = added.name := by
  by_contra elsewhere
  have same := renewed.renewed definition inside named
  have parsed : definition.parsed = added.parsed := (congrArg Definition.parsed same :)
  have outcome := renewed.resolve_eq inside fun request asked sameName => by
    obtain ⟨channel, source, channelAsks⟩ := Option.bind_eq_some_iff.mp asked
    exact elsewhere ⟨channel, request, source, channelAsks, sameName⟩
  obtain ⟨tree, treeResolves, -⟩ := Definition.resolve_eq_ok.mp resolves
  rw [fails, parsed, treeResolves] at outcome
  cases outcome

theorem Renewed.resolve_itself (renewed : before.Renewed added after)
    (noSelfTap : added.tapTarget? ≠ some (added.kind, added.name))
    {definition : Definition} (found : after.find? added.name = some definition)
    {channel : Channel} {request : Request}
    (source : definition.parsed.source = some channel)
    (asked : channel.request? = some request) (named : request.name = added.name) :
    definition.parsed.resolve after.environment =
      .error ⟨Channel.unknownTarget request.kind added.name, channel.span⟩ := by
  obtain ⟨inside, sameName⟩ := (find?_eq_some renewed.wellFormed.names_nodup).mp found
  have same := renewed.renewed definition inside sameName
  have kind : definition.kind = added.kind := (congrArg Definition.kind same :)
  have taps : added.tapTarget? = definition.tapTarget? :=
    (congrArg Definition.tapTarget? same.symm :)
  have asks : definition.request? = some request :=
    Option.bind_eq_some_iff.mpr ⟨channel, source, asked⟩
  refine resolve_of_otherKind found source asked named fun sameKind => ?_
  apply noSelfTap
  rw [taps, Definition.tapTarget?_of_request? asks, sameKind, kind, named]

theorem Renewed.mem_report_iff (renewed : before.Renewed added after)
    (resolves : added.resolve before.environment = .ok added)
    (noSelfTap : added.tapTarget? ≠ some (added.kind, added.name)) {failure : Failure} :
    failure ∈ after.resolveAll.1 ↔ before.Reported added.name after failure := by
  have distinct := renewed.wellFormed.names_nodup
  rw [mem_resolveAll_report]
  constructor
  · rintro ⟨definition, inside, diagnostic, fails, rfl⟩
    by_cases named : definition.name = added.name
    · obtain ⟨channel, request, source, asked, sameName⟩ :=
        renewed.request_of_error resolves inside named fails
      have found := (find?_eq_some distinct).mpr ⟨inside, named⟩
      have outcome := renewed.resolve_itself noSelfTap found source asked sameName
      obtain rfl := Except.error.inj (fails.symm.trans outcome)
      rw [named]
      exact .itself found source asked sameName
    · by_cases dependent : after.IsDependent added.name definition
      · exact .dependent dependent fails
      · obtain ⟨old, member, same⟩ := renewed.origin definition inside named
        have name : old.name = definition.name := (congrArg Definition.name same :)
        have parsed : old.parsed = definition.parsed := (congrArg Definition.parsed same :)
        have outcome := renewed.resolve_eq_of_independent inside named dependent
        rw [fails, ← parsed] at outcome
        rw [← name]
        exact .unrelated member (name ▸ named)
          (dependent ∘ (isDependent_iff member inside same).mp) outcome.symm
  · intro reported
    cases reported with
    | @dependent definition diagnostic dependent fails =>
        exact ⟨definition, dependent.1, diagnostic, fails, rfl⟩
    | @unrelated old diagnostic member different independent fails =>
        obtain ⟨definition, inside, same⟩ := renewed.kept old member different
        have name : old.name = definition.name := (congrArg Definition.name same :)
        have parsed : old.parsed = definition.parsed := (congrArg Definition.parsed same :)
        have outcome := renewed.resolve_eq_of_independent inside (name ▸ different)
          (independent ∘ (isDependent_iff member inside same).mpr)
        rw [← parsed, fails] at outcome
        exact ⟨definition, inside, diagnostic, parsed ▸ outcome, by rw [name]⟩
    | @itself definition channel request found source asked sameName =>
        obtain ⟨inside, named⟩ := (find?_eq_some distinct).mp found
        exact ⟨definition, inside, _,
          renewed.resolve_itself noSelfTap found source asked sameName, by rw [named]⟩

end Renewed

/-- The failure is that of another definition that taps the one with the name. -/
def ConcernsDependent (registry : Registry) (name : String) (failure : Failure) : Prop :=
  ∃ definition diagnostic, registry.IsDependent name definition ∧
    failure = .resolution definition.name diagnostic

/-- Every other definition resolves, unless it taps the one with the name. -/
def SoundBeside (registry : Registry) (name : String) : Prop :=
  ∀ definition ∈ registry.definitions, definition.name ≠ name →
    ¬registry.IsDependent name definition →
      ∃ tree, definition.parsed.resolve registry.environment = .ok tree

/-- The definition with the name asks for none of that name. -/
def AsksElsewhere (registry : Registry) (name : String) : Prop :=
  ∀ definition request, registry.find? name = some definition →
    definition.request? = some request → request.name ≠ name

theorem Renewed.concernsDependent_iff {before after : Registry} {added : Definition}
    (renewed : before.Renewed added after) :
    (∀ failure, before.Reported added.name after failure →
        after.ConcernsDependent added.name failure) ↔
      before.SoundBeside added.name ∧ after.AsksElsewhere added.name := by
  constructor
  · intro concerns
    constructor
    · intro old member different independent
      cases outcome : old.parsed.resolve before.environment with
      | ok tree => exact ⟨tree, rfl⟩
      | error diagnostic =>
          obtain ⟨definition, _, dependent, sameFailure⟩ :=
            concerns _ (.unrelated member different independent outcome)
          have named : old.name = definition.name := (Failure.resolution.inj sameFailure).1
          obtain ⟨kept, inside, same⟩ := renewed.kept old member different
          have name : old.name = kept.name := (congrArg Definition.name same :)
          have isKept := eq_of_name_eq renewed.wellFormed.names_nodup definition
            dependent.1 kept inside (named.symm.trans name)
          subst isKept
          exact (independent ((isDependent_iff member inside same).mpr
            dependent)).elim
    · intro definition request found asked named
      obtain ⟨channel, source, channelAsks⟩ := Option.bind_eq_some_iff.mp asked
      obtain ⟨dependent, _, ⟨-, different, -⟩, sameFailure⟩ :=
        concerns _ (.itself found source channelAsks named)
      exact different (Failure.resolution.inj sameFailure).1.symm
  · rintro ⟨sound, elsewhere⟩ failure reported
    cases reported with
    | dependent dependent fails => exact ⟨_, _, dependent, rfl⟩
    | unrelated member different independent fails =>
        obtain ⟨tree, resolves⟩ := sound _ member different independent
        rw [fails] at resolves
        cases resolves
    | itself found source asked named =>
        have asks := Option.bind_eq_some_iff.mpr ⟨_, source, asked⟩
        exact (elsewhere _ _ found asks named).elim

end Registry

namespace Session

/-- Whatever a session did before, the report of a redeployment consists of dependents
that do not resolve, of other definitions that had not resolved before either, and of
the new definition itself if it asks for the one that it has replaced.  It is about
dependents alone exactly if all other definitions had resolved and the new one asks for
none of its own name. -/
theorem reported_run (limit : Option Nat) (commands : List Command) (kind : Kind)
    (name text : String) (report : List Failure) (after : Registry)
    (redeployed : ((start limit).run commands).registry.redeploy kind name text =
      .ok (report, after)) :
    let before := ((start limit).run commands).registry
    (∀ failure, failure ∈ report ↔ before.Reported name after failure) ∧
      ((∀ failure ∈ report, after.ConcernsDependent name failure) ↔
        before.SoundBeside name ∧ after.AsksElsewhere name) := by
  intro before
  have wellFormed : before.WellFormed := wellFormed_run limit commands
  obtain ⟨-, added, staged, resolved⟩ := Registry.redeploy_eq_ok.mp redeployed
  obtain ⟨rfl, rfl, rfl, admissible⟩ := Registry.admissible_of_stage staged
  obtain ⟨-, -, noSelfTap, resolves⟩ := Registry.stage_eq_ok.mp staged
  have renewed := wellFormed.renewed admissible
  obtain ⟨-, -, -, -, again⟩ :=
    Registry.reresolved_resolveAll (wellFormed.replace admissible)
  rw [resolved] at renewed again
  have reported (failure : Failure) :
      failure ∈ report ↔ before.Reported added.name after failure := by
    rw [← renewed.mem_report_iff resolves noSelfTap, again]
  refine ⟨reported, ?_⟩
  simp only [reported]
  exact renewed.concernsDependent_iff

/-- All three reasons in one report: a tap that an earlier redeployment had broken, a
job replaced by a stream that taps this job, and a tap into the job. -/
theorem reported_run_nightly :
    let before := ((start none).run
      [.deploy .stream "main" "http | transform | file",
        .deploy .stream "audit" "tap:main.2 > log", .deploy .job "nightly" "batch",
        .deploy .stream "follow" "tap:job:nightly > log",
        .redeploy .stream "main" "http | file"]).registry
    let report : List Failure :=
      [.resolution "audit" ⟨.tapIndexOutOfRange "main" "2" 2, ⟨0, 10⟩⟩,
        .resolution "nightly" ⟨.unknownJob "nightly", ⟨0, 15⟩⟩,
        .resolution "follow" ⟨.unknownJob "nightly", ⟨0, 15⟩⟩]
    ∃ after,
      before.redeploy .stream "nightly" "tap:job:nightly > file" = .ok (report, after) ∧
        (∀ failure, failure ∈ report ↔ before.Reported "nightly" after failure) ∧
          ((∀ failure ∈ report, after.ConcernsDependent "nightly" failure) ↔
            before.SoundBeside "nightly" ∧ after.AsksElsewhere "nightly") := by
  intro before report
  have reported :
      (before.redeploy .stream "nightly" "tap:job:nightly > file").toOption.map
        Prod.fst = some report := by
    decide +kernel
  obtain ⟨⟨_, after⟩, succeeds, rfl⟩ := Option.map_eq_some_iff.mp reported
  have redeployed := eq_ok_of_toOption succeeds
  exact ⟨after, redeployed, reported_run none _ _ _ _ _ _ redeployed⟩

/-- A tap into `main`, broken when `main` got shorter, is reported again when an
unrelated definition is replaced. -/
theorem reported_run_side :
    let registry := ((start none).run
      [.deploy .stream "main" "http | transform | file",
        .deploy .stream "audit" "tap:main.2 > log", .deploy .stream "side" "jms",
        .redeploy .stream "main" "http | file"]).registry
    let failure : Failure :=
      .resolution "audit" ⟨.tapIndexOutOfRange "main" "2" 2, ⟨0, 10⟩⟩
    ∃ after, registry.redeploy .stream "side" "jms | file" = .ok ([failure], after) ∧
      ¬after.ConcernsDependent "side" failure := by
  intro registry failure
  have outcome : ∃ result ∈ (registry.redeploy .stream "side" "jms | file").toOption,
      result.1 = [failure] ∧ ∀ definition ∈ result.2.definitions,
        definition.name = "audit" → definition.tapTarget? = some (.stream, "main") := by
    decide +kernel
  obtain ⟨⟨_, after⟩, succeeds, rfl, tapsMain⟩ := outcome
  refine ⟨after, eq_ok_of_toOption succeeds, ?_⟩
  rintro ⟨definition, _, ⟨inside, -, kind, taps⟩, same⟩
  have named := (Failure.resolution.inj same).1
  rw [tapsMain definition inside named.symm] at taps
  simp at taps

end Session

end Tapline
