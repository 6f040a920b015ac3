import Tapline.Proofs.Registry.Session

/-!
# The integrity of registries

Whatever was done to a registry, each of its definitions is what its text spells,
within the limit and under a name of its own, and its resolved tree has no
position left to look up.  The last part holds although a tree may be older than
its target: a tree gets its labels from the targets of its time, and labels are
words, which no one can take for a position.
-/

namespace Tapline

theorem Module.Meaning.WellFormed.labelName_isWord {module : Module.Meaning}
    (wellFormed : module.WellFormed) : Text.IsWord module.labelName.toList := by
  cases label : module.label with
  | none => simpa [labelName, label] using wellFormed.name_isWord
  | some text => simpa [labelName, label] using wellFormed.label_isWord text label

namespace Definition

/-- What a registry with the limit warrants of a definition. -/
structure Intact (limit : Option Nat) (definition : Definition) : Prop where
  size_le : ∀ bound ∈ limit, definition.text.utf8ByteSize ≤ bound
  parse_eq : parse definition.kind definition.name definition.text =
    .ok { definition with resolved := none }
  /-- The trees differ at most in the index of the source. -/
  resolved_eq : ∃ tree index, definition.resolved = some tree ∧
    tree.isResolved = true ∧
      tree = { definition.parsed with
        source := definition.parsed.source.map (·.withIndex index) }
  no_self_tap : definition.tapTarget? ≠ some (definition.kind, definition.name)

namespace Admissible

variable {limit : Option Nat} {definition : Definition}

private theorem size_le (admissible : definition.Admissible limit) :
    ∀ bound ∈ limit, definition.text.utf8ByteSize ≤ bound := by
  intro bound member
  cases member
  have fits := admissible.fits
  simp only [Registry.excess?, Registry.empty, Option.bind_some] at fits
  split at fits
  · cases fits
  · omega

private theorem sink_of_resolve (admissible : definition.Admissible limit)
    {environment : Environment} {sink : Option Channel}
    (resolves : Pipeline.resolveChannel? environment definition.parsed.sink = .ok sink) :
    sink = definition.parsed.sink := by
  cases written : definition.parsed.sink with
  | none =>
      rw [written] at resolves
      cases resolves
      rfl
  | some channel =>
      rw [written] at resolves
      obtain ⟨found, channelResolves, rfl⟩ :=
        Pipeline.resolveChannel?_some_eq_ok.mp resolves
      have noTap := admissible.wellFormed.no_tap_of_mem_sink channel written
      rcases Channel.resolve_eq_ok.mp channelResolves with
        ⟨-, same⟩ | ⟨request, label, asked, -, -⟩
      · rw [same]
      · exact (noTap request.kind (Channel.request?_eq_some.mp asked).1).elim

private theorem exists_index (admissible : definition.Admissible limit) :
    ∃ tree index, definition.resolved = some tree ∧
      tree = { definition.parsed with
        source := definition.parsed.source.map (·.withIndex index) } := by
  obtain ⟨environment, resolves⟩ := admissible.resolves
  obtain ⟨tree, treeResolves, same⟩ := resolve_eq_ok.mp resolves
  obtain ⟨source, sink, sourceResolves, sinkResolves, rfl⟩ :=
    Pipeline.resolve_eq_ok.mp treeResolves
  obtain rfl := admissible.sink_of_resolve sinkResolves
  have resolved := congrArg Definition.resolved same
  cases written : definition.parsed.source with
  | none =>
      rw [written] at sourceResolves
      cases sourceResolves
      exact ⟨_, [], resolved, rfl⟩
  | some channel =>
      rw [written] at sourceResolves
      obtain ⟨found, channelResolves, rfl⟩ :=
        Pipeline.resolveChannel?_some_eq_ok.mp sourceResolves
      obtain ⟨index, rfl⟩ := Channel.exists_withIndex_of_resolve channelResolves
      exact ⟨_, index, resolved, rfl⟩

theorem intact (admissible : definition.Admissible limit)
    (final : definition.tree.isResolved = true) : definition.Intact limit := by
  constructor
  · exact admissible.size_le
  · exact admissible.read
  · obtain ⟨tree, index, resolved, shape⟩ := admissible.exists_index
    have current : definition.tree = tree := by
      simp [Definition.tree, resolved]
    rw [current] at final
    exact ⟨tree, index, resolved, final, shape⟩
  · exact admissible.no_self_tap

end Admissible

theorem isResolved_tree_of_resolve {environment : Environment}
    (answersWords : environment.AnswersWords) {definition resolved : Definition}
    (resolves : definition.resolve environment = .ok resolved) :
    resolved.tree.isResolved = true := by
  obtain ⟨tree, treeResolves, rfl⟩ := resolve_eq_ok.mp resolves
  exact Pipeline.isResolved_of_resolve answersWords treeResolves

end Definition

namespace Registry

variable {registry : Registry}

/-- Taps only ever see labels that some text spells. -/
theorem WellFormed.answersWords (wellFormed : registry.WellFormed) :
    registry.environment.AnswersWords := by
  intro request label answer
  obtain ⟨target, member, -, -, labelled⟩ :=
    (answer?_eq_some wellFormed.names_nodup).mp answer
  have admissible := wellFormed.admissible target member
  rw [Pipeline.labelAt?, admissible.labels_tree] at labelled
  obtain ⟨module, inside, rfl⟩ := List.mem_map.mp (List.mem_of_getElem? labelled)
  exact (admissible.wellFormed.of_mem_modules module inside).labelName_isWord

/-- No tree has a position left to look up. -/
def Final (registry : Registry) : Prop :=
  ∀ definition ∈ registry.definitions, definition.tree.isResolved = true

namespace Final

theorem undeploy (final : registry.Final) {name : String} {definition : Definition}
    {smaller : Registry}
    (undeployed : registry.undeploy name = .ok (definition, smaller)) :
    smaller.Final := by
  obtain ⟨-, -, rfl⟩ := undeploy_eq_ok.mp undeployed
  intro other member
  exact final other (List.mem_filter.mp member).1

theorem replace (final : registry.Final) {definition : Definition}
    (resolved : definition.tree.isResolved = true) :
    (registry.replace definition).Final := by
  intro other member
  obtain ⟨old, inside, rfl⟩ := List.mem_map.mp member
  split
  · exact resolved
  · exact final old inside

variable (wellFormed : registry.WellFormed) (final : registry.Final)

include wellFormed final

theorem deploy {grown : Registry} {kind : Kind} {name text : String}
    {definition : Definition}
    (deployed : registry.deploy kind name text = .ok (definition, grown)) :
    grown.Final := by
  obtain ⟨-, staged, rfl⟩ := deploy_eq_ok.mp deployed
  obtain ⟨-, -, -, resolves⟩ := stage_eq_ok.mp staged
  intro other member
  rcases List.mem_append.mp member with old | new
  · exact final other old
  · rw [List.mem_singleton.mp new]
    exact Definition.isResolved_tree_of_resolve wellFormed.answersWords resolves

/-- A definition that no longer resolves keeps a tree without positions. -/
theorem resolveAll : registry.resolveAll.2.Final := by
  rw [resolveAll_definitions]
  intro definition member
  obtain ⟨old, inside, rfl⟩ := List.mem_map.mp member
  cases resolves : old.resolve registry.environment with
  | error failure =>
      rw [Definition.refresh_of_error resolves]
      exact final old inside
  | ok resolved =>
      rw [Definition.refresh_of_ok resolves]
      exact Definition.isResolved_tree_of_resolve wellFormed.answersWords resolves

theorem redeploy {kind : Kind} {name text : String} {report : List Failure}
    {after : Registry}
    (redeployed : registry.redeploy kind name text = .ok (report, after)) :
    after.Final := by
  obtain ⟨-, definition, staged, resolved⟩ := redeploy_eq_ok.mp redeployed
  obtain ⟨-, -, -, resolves⟩ := stage_eq_ok.mp staged
  obtain ⟨-, -, -, admissible⟩ := admissible_of_stage staged
  have replaced := final.replace
    (Definition.isResolved_tree_of_resolve wellFormed.answersWords resolves)
  have resolvedAgain := replaced.resolveAll (wellFormed.replace admissible)
  rwa [resolved] at resolvedAgain

end Final

/-- What is warranted of a registry that began empty with the limit. -/
structure Intact (limit : Option Nat) (registry : Registry) : Prop where
  names_nodup : registry.names.Nodup
  /-- A definition is found under its own name and no other. -/
  find?_iff : ∀ name definition, registry.find? name = some definition ↔
    definition ∈ registry.definitions ∧ definition.name = name
  intact : ∀ definition ∈ registry.definitions, definition.Intact limit

end Registry

namespace Session

-- A new tree is made from the labels of well-formed trees, so both properties of
-- the registry are kept together.
theorem final_step {session : Session} (command : Command)
    (wellFormed : session.registry.WellFormed) (final : session.registry.Final) :
    (session.step command).registry.Final := by
  have both : (session.step command).registry.WellFormed ∧
      (session.step command).registry.Final := by
    apply registry_step (fun registry => registry.WellFormed ∧ registry.Final)
    · exact ⟨wellFormed, final⟩
    · exact fun holds deployed =>
        ⟨holds.1.deploy deployed, holds.2.deploy holds.1 deployed⟩
    · exact fun _ redeployed =>
        ⟨wellFormed.redeploy redeployed, final.redeploy wellFormed redeployed⟩
    · exact fun undeployed =>
        ⟨wellFormed.undeploy undeployed, final.undeploy undeployed⟩
    · exact ⟨wellFormed.resolveAll, final.resolveAll wellFormed⟩
  exact both.2

theorem final_run (limit : Option Nat) (commands : List Command) :
    ((start limit).run commands).registry.Final := by
  have atStart : (start limit).registry.Final := by
    simp [Registry.Final, start, Registry.empty]
  apply run_induction_of_wellFormed (·.registry.Final) (fun _ => True)
  · exact fun {_ command} _ => final_step command
  · exact atStart
  · exact fun _ _ => trivial

/-- Every registry that a session reaches is intact. -/
theorem intact_run (limit : Option Nat) (commands : List Command) :
    ((start limit).run commands).registry.Intact limit := by
  have wellFormed := wellFormed_run limit commands
  have final := final_run limit commands
  constructor
  · exact wellFormed.names_nodup
  · intro name definition
    exact Registry.find?_eq_some wellFormed.names_nodup
  · intro definition member
    have admissible := wellFormed.admissible definition member
    rw [limit_run limit commands] at admissible
    exact admissible.intact (final definition member)

/-- The tap follows its target through a redeployment that moves its module, and keeps
its tree through one that leaves it without. -/
theorem intact_run_outdated :
    let commands : List Command :=
      [.deploy .stream "main" "http | transform | file",
        .deploy .stream "audit" "tap:main.2 > log",
        .redeploy .stream "main" "main = jms | filter | t: log",
        .redeploy .stream "main" "http | file", .deploy .job "main" "batch"]
    let registry := ((start (some 28)).run commands).registry
    registry.definitions.map Definition.display =
        ["main = http | file", "audit = tap:stream:main.t > log"] ∧
      ∃ audit, registry.find? "audit" = some audit ∧ audit.Intact (some 28) := by
  intro commands registry
  have present : (registry.find? "audit").isSome = true := by decide +kernel
  obtain ⟨audit, found⟩ := Option.isSome_iff_exists.mp present
  have intact : registry.Intact (some 28) := intact_run (some 28) commands
  obtain ⟨member, -⟩ := (intact.find?_iff "audit" audit).mp found
  exact ⟨by decide +kernel, audit, found, intact.intact audit member⟩

end Session

end Tapline
