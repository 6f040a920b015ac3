import Tapline.Proofs.Registry.Replay

/-!
# Deploying manifests

The entries of a manifest are deployed one after the other.  An entry that fails
is reported under its name and leaves nothing behind, so the later entries fare as
they would without it.  The entries that do not fail are appended in their order,
and a manifest of them alone has the same effect.
-/

namespace Tapline

private theorem Definition.name_of_parse_error {kind : Kind} {name text : String}
    {failure : Failure} (fails : parse kind name text = .error failure) :
    failure.name = name := by
  unfold parse at fails
  cases read : Pipeline.parse kind text with
  | error diagnostic =>
      simp only [read, Except.error.injEq] at fails
      rw [← fails]
      rfl
  | ok parsed =>
      cases declared : parsed.name with
      | none => simp [read, declared] at fails
      | some other =>
          by_cases same : other = name
          · simp [read, declared, same] at fails
          · simp only [read, declared, same, if_false, Except.error.injEq] at fails
            rw [← fails]
            rfl

namespace Registry

variable {registry : Registry} {kind : Kind} {name text : String} {failure : Failure}

private theorem name_of_stage_error (fails : registry.stage kind name text = .error failure) :
    failure.name = name := by
  unfold stage at fails
  cases fits : registry.excess? text with
  | some excess =>
      simp only [fits, Except.error.injEq] at fails
      rw [← fails]
      rfl
  | none =>
      rw [fits] at fails
      rcases bind_eq_error.mp fails with unread | ⟨definition, read, refused⟩
      · exact Definition.name_of_parse_error unread
      · by_cases selfTap : definition.tapTarget? = some (kind, name)
        · rw [if_pos selfTap, Except.error.injEq] at refused
          rw [← refused]
          rfl
        · rw [if_neg selfTap] at refused
          obtain ⟨diagnostic, -, rfl⟩ := Definition.resolve_eq_error.mp refused
          obtain ⟨parsed, -, -, rfl⟩ := Definition.parse_eq_ok.mp read
          rfl

theorem name_of_deploy_error (fails : registry.deploy kind name text = .error failure) :
    failure.name = name := by
  unfold deploy at fails
  cases found : registry.find? name with
  | some existing =>
      simp only [found, Except.error.injEq] at fails
      rw [← fails]
      rfl
  | none =>
      rw [found] at fails
      rcases bind_eq_error.mp fails with unstaged | ⟨definition, -, impossible⟩
      · exact name_of_stage_error unstaged
      · cases impossible

theorem entry_of_deploy {definition : Definition} {grown : Registry}
    (deployed : registry.deploy kind name text = .ok (definition, grown)) :
    definition.entry = ⟨name, kind, text⟩ := by
  obtain ⟨-, staged, -⟩ := deploy_eq_ok.mp deployed
  obtain ⟨rfl, rfl, rfl, -⟩ := admissible_of_stage staged
  rfl

end Registry

namespace Manifest

/-- Each entry with what its deployment answers in the registry that the entries
before it leave. -/
def outcomes (registry : Registry) (entries : List ManifestEntry) :
    List (ManifestEntry × Except Failure Definition) :=
  entries.mapIdx fun position entry =>
    (entry, Prod.fst <$>
      (deployEntries registry (entries.take position)).2.deploy
        entry.kind entry.name entry.text)

/-- The entries that were deployed. -/
def kept (registry : Registry) (entries : List ManifestEntry) : List ManifestEntry :=
  ((outcomes registry entries).filter (·.2.toOption.isSome)).map Prod.fst

/-- The entries that were skipped. -/
def skipped (registry : Registry) (entries : List ManifestEntry) : List ManifestEntry :=
  ((outcomes registry entries).filter (·.2.toOption.isNone)).map Prod.fst

variable {registry : Registry} {entry : ManifestEntry} {entries : List ManifestEntry}

section Deployed

variable {definition : Definition} {grown : Registry}
  (deployed : registry.deploy entry.kind entry.name entry.text = .ok (definition, grown))

include deployed

private theorem outcomes_cons_ok : outcomes registry (entry :: entries) =
    (entry, .ok definition) :: outcomes grown entries := by
  simp [outcomes, List.mapIdx_cons, deployEntries, deployed, Functor.map, Except.map]

theorem deployEntries_cons_ok :
    deployEntries registry (entry :: entries) = deployEntries grown entries := by
  rw [deployEntries, deployed]

theorem kept_cons_ok :
    kept registry (entry :: entries) = entry :: kept grown entries := by
  simp [kept, outcomes_cons_ok deployed, Except.toOption]

private theorem skipped_cons_ok :
    skipped registry (entry :: entries) = skipped grown entries := by
  simp [skipped, outcomes_cons_ok deployed, Except.toOption]

end Deployed

section Refused

variable {failure : Failure}
  (fails : registry.deploy entry.kind entry.name entry.text = .error failure)

include fails

private theorem outcomes_cons_error : outcomes registry (entry :: entries) =
    (entry, .error failure) :: outcomes registry entries := by
  simp [outcomes, List.mapIdx_cons, deployEntries, fails, Functor.map, Except.map]

theorem deployEntries_cons_error : deployEntries registry (entry :: entries) =
    (failure :: (deployEntries registry entries).1,
      (deployEntries registry entries).2) := by
  rw [deployEntries, fails]

theorem kept_cons_error :
    kept registry (entry :: entries) = kept registry entries := by
  simp [kept, outcomes_cons_error fails, Except.toOption]

private theorem skipped_cons_error :
    skipped registry (entry :: entries) = entry :: skipped registry entries := by
  simp [skipped, outcomes_cons_error fails, Except.toOption]

end Refused

theorem report_eq (registry : Registry) (entries : List ManifestEntry) :
    (deployEntries registry entries).1 =
      (outcomes registry entries).filterMap (failure? ·.2) := by
  induction entries generalizing registry with
  | nil => rfl
  | cons entry entries induction =>
      cases outcome : registry.deploy entry.kind entry.name entry.text with
      | ok result =>
          rw [deployEntries_cons_ok outcome, outcomes_cons_ok outcome]
          exact induction result.2
      | error failure =>
          rw [deployEntries_cons_error outcome, outcomes_cons_error outcome]
          exact congrArg (failure :: ·) (induction registry)

theorem map_name_report (registry : Registry) (entries : List ManifestEntry) :
    (deployEntries registry entries).1.map Failure.name =
      (skipped registry entries).map ManifestEntry.name := by
  induction entries generalizing registry with
  | nil => rfl
  | cons entry entries induction =>
      cases outcome : registry.deploy entry.kind entry.name entry.text with
      | ok result =>
          rw [deployEntries_cons_ok outcome, skipped_cons_ok outcome]
          exact induction result.2
      | error failure =>
          rw [deployEntries_cons_error outcome, skipped_cons_error outcome,
            List.map_cons, List.map_cons, Registry.name_of_deploy_error outcome,
            induction registry]

theorem registry_eq (registry : Registry) (entries : List ManifestEntry) :
    (deployEntries registry entries).2 = registry.part
      (registry.definitions ++ (outcomes registry entries).filterMap (·.2.toOption)) := by
  induction entries generalizing registry with
  | nil => simp [deployEntries, outcomes, Registry.part]
  | cons entry entries induction =>
      cases outcome : registry.deploy entry.kind entry.name entry.text with
      | ok result =>
          obtain ⟨definition, grown⟩ := result
          obtain ⟨-, -, appended⟩ := Registry.deploy_eq_ok.mp outcome
          rw [deployEntries_cons_ok outcome, outcomes_cons_ok outcome, induction grown,
            appended]
          simp [Registry.part, Except.toOption]
      | error failure =>
          rw [deployEntries_cons_error outcome, outcomes_cons_error outcome]
          exact induction registry

theorem map_entry_deployed (registry : Registry) (entries : List ManifestEntry) :
    ((outcomes registry entries).filterMap (·.2.toOption)).map Definition.entry =
      kept registry entries := by
  induction entries generalizing registry with
  | nil => rfl
  | cons entry entries induction =>
      cases outcome : registry.deploy entry.kind entry.name entry.text with
      | ok result =>
          obtain ⟨definition, grown⟩ := result
          rw [outcomes_cons_ok outcome, kept_cons_ok outcome, ← induction grown]
          simp [Except.toOption, Registry.entry_of_deploy outcome]
      | error failure =>
          rw [outcomes_cons_error outcome, kept_cons_error outcome]
          exact induction registry

/-- The entries that fail leave no trace: the others alone are deployed without
failures, and with the same effect. -/
theorem deployEntries_kept (registry : Registry) (entries : List ManifestEntry) :
    deployEntries registry (kept registry entries) =
      ([], (deployEntries registry entries).2) := by
  induction entries generalizing registry with
  | nil => rfl
  | cons entry entries induction =>
      cases outcome : registry.deploy entry.kind entry.name entry.text with
      | ok result =>
          rw [kept_cons_ok outcome, deployEntries_cons_ok outcome,
            deployEntries_cons_ok outcome]
          exact induction result.2
      | error failure =>
          rw [kept_cons_error outcome, deployEntries_cons_error outcome]
          exact induction registry

/-- Deploying a manifest reports each entry that fails, in order and under its name,
and appends the others in order.  A manifest of the others alone does the same
without a failure, and it is what an empty registry lists afterwards. -/
theorem deployInto_kept (manifest : Manifest) (registry : Registry) :
    let outcomes := outcomes registry manifest.entries
    let deployed := outcomes.filterMap (·.2.toOption)
    let keptOnly : Manifest := { manifest with entries := kept registry manifest.entries }
    (manifest.deployInto registry).1 = outcomes.filterMap (failure? ·.2) ∧
      (manifest.deployInto registry).1.map Failure.name =
        (skipped registry manifest.entries).map ManifestEntry.name ∧
      (manifest.deployInto registry).2 =
        { registry with definitions := registry.definitions ++ deployed } ∧
      deployed.map Definition.entry = keptOnly.entries ∧
      keptOnly.deployInto registry = ([], (manifest.deployInto registry).2) ∧
      ∀ limit, (ofRegistry (manifest.deployInto (.empty limit)).2).entries =
        kept (.empty limit) manifest.entries := by
  intro outcomes deployed keptOnly
  refine ⟨report_eq registry manifest.entries, map_name_report registry manifest.entries,
    registry_eq registry manifest.entries, map_entry_deployed registry manifest.entries,
    deployEntries_kept registry manifest.entries, ?_⟩
  intro limit
  have listed : (manifest.deployInto (.empty limit)).2.definitions =
      (Manifest.outcomes (.empty limit) manifest.entries).filterMap (·.2.toOption) :=
    congrArg Registry.definitions (registry_eq (.empty limit) manifest.entries)
  rw [ofRegistry, listed]
  exact map_entry_deployed (.empty limit) manifest.entries

/-- A tap that comes too early is skipped, and so are a second definition under a name
in use and a text that is broken off.  The tap is kept where it is listed once more. -/
theorem deployInto_kept_early :
    let main : ManifestEntry := ⟨"main", .stream, "http | file"⟩
    let copy : ManifestEntry := ⟨"copy", .stream, "tap:audit > log"⟩
    let audit : ManifestEntry := ⟨"audit", .stream, "audit = tap:main.1 > log"⟩
    let again : ManifestEntry := ⟨"main", .job, "batch"⟩
    let broken : ManifestEntry := ⟨"broken", .stream, "http |"⟩
    let manifest : Manifest := ⟨1, [copy, audit, again, broken, copy]⟩
    let registry := (Manifest.mk 1 [main]).deployInto (.empty none) |>.2
    let result := manifest.deployInto registry
    result.1.map Failure.name = ["copy", "main", "broken"] ∧
      result.2.definitions.map Definition.display =
        ["main = http | file", "audit = tap:stream:main.file > log",
          "copy = tap:stream:audit.log > log"] ∧
        (Manifest.mk 1 [audit, copy]).deployInto registry = ([], result.2) := by
  intro main copy audit again broken manifest registry result
  obtain ⟨-, names, -, -, silent, -⟩ := deployInto_kept manifest registry
  have skipped : skipped registry manifest.entries = [copy, again, broken] := by
    decide +kernel
  have kept : kept registry manifest.entries = [audit, copy] := by decide +kernel
  rw [skipped] at names
  rw [kept] at silent
  exact ⟨names, by decide +kernel, silent⟩

end Manifest

end Tapline
