import Tapline.Proofs.Registry.Reports

/-!
# Removing definitions

Whether a definition may be removed depends on who taps it, by its name and kind.
Resolution asks for a name and a kind as well, and only a source can ask.  So where
nobody taps the removed definition, nobody was answered by it either, and whoever
asked for its name with the other kind is refused now as before.
-/

namespace Tapline

/-- The source of the definition taps the name, as one of the kind. -/
def Definition.Taps (definition : Definition) (kind : Kind) (name : String) : Prop :=
  ∃ channel, definition.parsed.source = some channel ∧ channel.kind = .tap kind ∧
    channel.targetName = name

theorem Definition.tapTarget?_eq_some {definition : Definition} {kind : Kind}
    {name : String} :
    definition.tapTarget? = some (kind, name) ↔ definition.Taps kind name := by
  unfold tapTarget? Taps
  cases definition.parsed.source with
  | none => simp
  | some channel =>
      cases tapped : channel.kind <;> simp [tapped, ChannelKind.tapped?]

namespace Registry

/-- A definition under another name that taps the target with its kind. -/
def IsUser (registry : Registry) (target definition : Definition) : Prop :=
  definition ∈ registry.definitions ∧ definition.name ≠ target.name ∧
    definition.Taps target.kind target.name

/-- The names of exactly those that tap the target, in the order of deployment. -/
structure ListsUsers (registry : Registry) (target : Definition)
    (users : List String) : Prop where
  deployment_order : users.Sublist registry.names
  mem_iff : ∀ user, user ∈ users ↔
    ∃ definition, registry.IsUser target definition ∧ definition.name = user

/-- The registry `after` is `before` without the definition of the name, and for
whatever is left it makes no difference. -/
structure Without (before : Registry) (name : String) (after : Registry) : Prop where
  limit_eq : after.limit = before.limit
  definitions_eq : after.definitions = before.definitions.filter (·.name ≠ name)
  resolve_eq : ∀ definition ∈ after.definitions,
    definition.resolve after.environment = definition.resolve before.environment

section Users

variable {registry : Registry} {target : Definition}

theorem listsUsers_dependents (found : registry.find? target.name = some target) :
    registry.ListsUsers target (registry.dependents target.name) := by
  rw [dependents, found]
  constructor
  · exact List.filter_sublist.map Definition.name
  · simp [IsUser, Definition.tapTarget?_eq_some, and_assoc]

theorem ListsUsers.eq_nil_iff {users : List String}
    (lists : registry.ListsUsers target users) :
    users = [] ↔ ¬∃ definition, registry.IsUser target definition := by
  rw [List.eq_nil_iff_forall_not_mem]
  constructor
  · rintro none ⟨definition, uses⟩
    exact none definition.name ((lists.mem_iff _).mpr ⟨definition, uses, rfl⟩)
  · intro none user listed
    obtain ⟨definition, uses, -⟩ := (lists.mem_iff user).mp listed
    exact none ⟨definition, uses⟩

theorem undeploy_eq_error {name : String}
    (found : registry.find? name = some target) {failure : Failure} :
    registry.undeploy name = .error failure ↔
      registry.dependents name ≠ [] ∧
        failure = .inUse name (registry.dependents name) := by
  unfold undeploy
  rw [found]
  cases registry.dependents name <;> simp [eq_comm]

end Users

section Filter

variable {registry : Registry} {name : String}

private theorem find?_filter_self :
    (registry.part (registry.definitions.filter (·.name ≠ name))).find? name = none := by
  simp [find?, part]

private theorem find?_filter_of_ne {other : String} (different : other ≠ name) :
    (registry.part (registry.definitions.filter (·.name ≠ name))).find? other =
      registry.find? other := by
  simp only [find?, part, List.find?_filter]
  congr 1
  funext definition
  by_cases named : definition.name = other
  · simp [named, different]
  · simp [named]

/-- Where nobody taps the definition with the name, whatever is left is answered as
before. -/
theorem agreeOn_filter {target : Definition}
    (found : registry.find? name = some target)
    (unused : registry.dependents name = []) {definition : Definition}
    (member : definition ∈ registry.definitions) (different : definition.name ≠ name)
    {request : Request} (asked : definition.request? = some request) :
    (registry.part
        (registry.definitions.filter (·.name ≠ name))).environment.AgreeOn
      registry.environment request := by
  unfold Environment.AgreeOn
  rw [environment_find?, environment_find?]
  by_cases named : request.name = name
  · have otherKind : target.kind ≠ request.kind := by
      intro sameKind
      apply (dependents_eq_nil found).mp unused definition member different
      rw [Definition.tapTarget?_of_request? asked, named, sameKind]
    rw [named, find?_filter_self, found, Option.filter_some_neg (by simpa using otherKind)]
    rfl
  · rw [find?_filter_of_ne named]

theorem WellFormed.without (wellFormed : registry.WellFormed) {removed : Definition}
    {smaller : Registry}
    (undeployed : registry.undeploy name = .ok (removed, smaller)) :
    registry.Without name smaller := by
  obtain ⟨found, unused, rfl⟩ := undeploy_eq_ok.mp undeployed
  refine ⟨rfl, rfl, fun definition inside => ?_⟩
  obtain ⟨member, different⟩ := List.mem_filter.mp inside
  have admissible := wellFormed.admissible definition member
  have outcome := admissible.resolve_of_agreeOn fun request asked =>
    agreeOn_filter found unused member (of_decide_eq_true different) asked
  simp only [Definition.resolve]
  rw [← outcome]
  rfl

end Filter

end Registry

namespace Session

/-- In whatever registry a session has reached, removing a definition leaves all others
as they are, and each of them resolves to the same tree or fails in the same way as
before.  A definition that is there cannot be removed exactly if others tap it with its
kind, and these are then listed. -/
theorem undeploy_run (limit : Option Nat) (commands : List Command) (name : String) :
    let registry := ((start limit).run commands).registry
    (∀ removed smaller, registry.undeploy name = .ok (removed, smaller) →
        registry.find? name = some removed ∧ registry.Without name smaller) ∧
      ∀ target, registry.find? name = some target →
        ((∃ users, registry.undeploy name = .error (.inUse name users)) ↔
            ∃ definition, registry.IsUser target definition) ∧
          ∀ failure, registry.undeploy name = .error failure →
            ∃ users, failure = .inUse name users ∧ registry.ListsUsers target users := by
  intro registry
  have wellFormed : registry.WellFormed := wellFormed_run limit commands
  constructor
  · intro removed smaller undeployed
    obtain ⟨found, -⟩ := Registry.undeploy_eq_ok.mp undeployed
    exact ⟨found, wellFormed.without undeployed⟩
  · intro target found
    obtain ⟨-, rfl⟩ := (Registry.find?_eq_some wellFormed.names_nodup).mp found
    have lists := Registry.listsUsers_dependents found
    constructor
    · rw [← not_iff_not, ← lists.eq_nil_iff]
      simp [Registry.undeploy_eq_error found]
    · intro failure refused
      obtain ⟨-, rfl⟩ := (Registry.undeploy_eq_error found).mp refused
      exact ⟨_, rfl, lists⟩

/-- A job that has become a stream can be removed although a tap still asks for the job.
A stream cannot be removed while a tap names a label in it. -/
theorem undeploy_run_nightly :
    let commands : List Command :=
      [.deploy .stream "etl:main" "http | transform | file",
        .deploy .stream "audit" "tap:STREAM:etl:main.transform > log",
        .deploy .job "nightly" "batch", .deploy .stream "follow" "tap:job:nightly > log",
        .redeploy .stream "nightly" "jms | file"]
    let registry := ((start none).run commands).registry
    ∃ nightly smaller main,
      registry.undeploy "nightly" = .ok (nightly, smaller) ∧
        registry.Without "nightly" smaller ∧ registry.find? "etl:main" = some main ∧
          registry.undeploy "etl:main" = .error (.inUse "etl:main" ["audit"]) ∧
            registry.ListsUsers main ["audit"] := by
  intro commands registry
  have removable : (registry.undeploy "nightly").toOption.isSome = true := by
    decide +kernel
  have present : (registry.find? "etl:main").isSome = true := by
    decide +kernel
  have refusal : failure? (registry.undeploy "etl:main") =
      some (.inUse "etl:main" ["audit"]) := by
    decide +kernel
  obtain ⟨⟨nightly, smaller⟩, succeeds⟩ := Option.isSome_iff_exists.mp removable
  obtain ⟨main, found⟩ := Option.isSome_iff_exists.mp present
  have undeployed := eq_ok_of_toOption succeeds
  have refused := eq_error_of_failure? refusal
  have without := ((undeploy_run none commands "nightly").1 nightly smaller undeployed).2
  obtain ⟨users, same, lists⟩ :=
    ((undeploy_run none commands "etl:main").2 main found).2 _ refused
  obtain ⟨-, rfl⟩ := Failure.inUse.inj same
  exact ⟨nightly, smaller, main, undeployed, without, found, refused, lists⟩

end Session

end Tapline
