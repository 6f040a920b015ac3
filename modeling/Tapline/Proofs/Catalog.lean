import Tapline.Catalog
import Tapline.Proofs.Lookups
import Tapline.Proofs.Registry.Session

/-!
# What catalogs hold

A registry is stored in a catalog with the names of its definitions as keys.  An
operation on such a catalog answers as it does on the registry, and what it leaves is
again the catalog of a registry: of the next one if it succeeds, and of the same one if
it fails.  So commands lead an empty catalog and an empty registry to the same
definitions, and every key is the name of what it is the key of.
-/

namespace Tapline

namespace Catalog

variable {catalog : Catalog} {kind : Kind} {name text : String} {failure : Failure}

theorem deploy_of_error (failed : (catalog.deploy kind name text).1 = .error failure) :
    (catalog.deploy kind name text).2 = catalog := by
  unfold deploy at failed ⊢
  split
  · rfl
  · rename_i fresh
    rw [if_neg fresh] at failed
    split
    · rfl
    · rename_i definition staged
      rw [staged] at failed
      dsimp only at failed
      rw [if_neg fresh] at failed
      cases failed

theorem redeploy_of_error (failed : (catalog.redeploy kind name text).1 = .error failure) :
    (catalog.redeploy kind name text).2 = catalog := by
  unfold redeploy at failed ⊢
  split
  · rfl
  · rename_i present
    rw [if_neg present] at failed
    split
    · rfl
    · rename_i definition staged
      rw [staged] at failed
      cases failed

theorem undeploy_of_error (failed : (catalog.undeploy name).1 = .error failure) :
    (catalog.undeploy name).2 = catalog := by
  unfold undeploy at failed ⊢
  split
  · rfl
  · rename_i unused
    rw [unused] at failed
    dsimp only at failed
    split
    · rfl
    · rename_i definition found
      rw [found] at failed
      cases failed

end Catalog

namespace Definition

variable {definition resolved : Definition} {environment : Environment}

private theorem refresh_of_renewed?_none
    (renewed : definition.renewed? environment = none) :
    definition.refresh environment = definition := by
  unfold renewed? at renewed
  cases resolves : definition.resolve environment with
  | error failure => exact refresh_of_error resolves
  | ok resolved =>
      rw [refresh_of_ok resolves]
      simpa [resolves] using renewed

private theorem refresh_of_renewed?_some
    (renewed : definition.renewed? environment = some resolved) :
    definition.refresh environment = resolved := by
  unfold renewed? at renewed
  cases resolves : definition.resolve environment with
  | error failure => simp [resolves] at renewed
  | ok found =>
      rw [refresh_of_ok resolves]
      simp only [resolves, Option.ite_none_left_eq_some] at renewed
      exact Option.some.inj renewed.2

end Definition

namespace Registry

/-- The catalog in which the definitions are stored under their names. -/
def catalog (registry : Registry) : Catalog :=
  ⟨registry.limit, registry.definitions.map fun definition =>
    (definition.name, definition)⟩

/-- How an operation on a registry ends for its catalog. -/
def concluded {Result : Type} (registry : Registry) :
    Except Failure (Result × Registry) → Except Failure Result × Catalog
  | .ok (result, after) => (.ok result, after.catalog)
  | .error failure => (.error failure, registry.catalog)

variable {registry : Registry}

@[simp] theorem registry_catalog (registry : Registry) :
    registry.catalog.registry = registry := by
  simp [catalog, Catalog.registry, Function.comp_def]

@[simp] theorem keys_catalog (registry : Registry) :
    registry.catalog.keys = registry.names := by
  simp [catalog, Catalog.keys, names, Function.comp_def]

@[simp] theorem find?_catalog (registry : Registry) (name : String) :
    registry.catalog.find? name = registry.find? name := by
  obtain ⟨limit, definitions⟩ := registry
  simp only [catalog, Catalog.find?, find?]
  induction definitions with
  | nil => rfl
  | cons definition definitions induction =>
      by_cases same : definition.name = name
      · subst same
        simp
      · rw [List.map_cons, List.lookup_cons, beq_eq_false_iff_ne.mpr (Ne.symm same),
          List.find?_cons_of_neg (by simpa using same)]
        exact induction

@[simp] theorem environment_catalog (registry : Registry) :
    registry.catalog.environment = registry.environment := by
  simp only [Catalog.environment, find?_catalog]
  rfl

theorem stage_catalog (registry : Registry) (kind : Kind) (name text : String) :
    registry.catalog.stage kind name text = registry.stage kind name text := by
  simp only [Catalog.stage, registry_catalog, environment_catalog]
  rfl

theorem dependents_catalog (registry : Registry) (name : String) :
    registry.catalog.dependents name = registry.dependents name := by
  simp only [Catalog.dependents, registry_catalog, find?_catalog]
  rfl

private theorem insert_of_new {definition : Definition} (new : definition.name ∉ registry.names) :
    registry.catalog.insert definition.name definition =
      (registry.part (registry.definitions ++ [definition])).catalog := by
  have newKey : definition.name ∉ registry.catalog.entries.map Prod.fst := by
    simpa [catalog, names, Function.comp_def] using new
  rw [Catalog.insert, Definition.putEntry_of_new newKey]
  simp [catalog, part]

private theorem update_catalog (registry : Registry) (definition : Definition) :
    registry.catalog.update definition = (registry.replace definition).catalog := by
  simp only [Catalog.update, catalog, replace, List.map_map, Catalog.mk.injEq, true_and]
  refine List.map_congr_left fun old _ => ?_
  by_cases same : old.name = definition.name
  · simp [same]
  · simp [same]

private theorem insert_of_old {definition : Definition} (old : definition.name ∈ registry.names) :
    registry.catalog.insert definition.name definition =
      (registry.replace definition).catalog := by
  rw [← update_catalog]
  have present : registry.catalog.entries.any (·.1 = definition.name) = true := by
    simpa [catalog, names] using old
  simp only [Catalog.insert, Catalog.update, Definition.putEntry, present, if_true,
    Catalog.mk.injEq, true_and]
  refine List.map_congr_left fun entry _ => ?_
  by_cases same : entry.1 = definition.name
  · simp [same]
  · simp [same]

theorem deploy_catalog (registry : Registry) (kind : Kind) (name text : String) :
    registry.catalog.deploy kind name text =
      registry.concluded (registry.deploy kind name text) := by
  unfold Catalog.deploy deploy
  rw [Catalog.contains, find?_catalog, stage_catalog]
  cases found : registry.find? name with
  | some definition => rfl
  | none =>
      cases staged : registry.stage kind name text with
      | error failure => rfl
      | ok definition =>
          obtain ⟨rfl, -⟩ := admissible_of_stage staged
          have stored := insert_of_new (find?_eq_none.mp found)
          exact congrArg (Prod.mk (Except.ok definition)) stored

/-- What comes out as it was need not be stored again. -/
theorem foldl_update {registry : Registry} (distinct : registry.names.Nodup)
    (environment : Environment) {earlier later : List Definition}
    (order : registry.definitions = earlier ++ later) :
    (later.filterMap (·.renewed? environment)).foldl Catalog.update registry.catalog =
      (registry.part (earlier ++ later.map (·.refresh environment))).catalog := by
  induction later generalizing registry earlier with
  | nil => simp [part, ← order]
  | cons definition later induction =>
      have next {current : Registry} (distinct : current.names.Nodup)
          (order : current.definitions =
            earlier ++ definition.refresh environment :: later)
          (limit : current.limit = registry.limit) :
          (later.filterMap (·.renewed? environment)).foldl Catalog.update current.catalog =
            (registry.part (earlier ++
              (definition :: later).map (·.refresh environment))).catalog := by
        have rest := induction distinct (order.trans (List.append_cons ..))
        rw [rest]
        simp [part, limit]
      cases renewed : definition.renewed? environment with
      | none =>
          have same := Definition.refresh_of_renewed?_none renewed
          rw [List.filterMap_cons_none renewed]
          exact next distinct (same.symm ▸ order) rfl
      | some resolved =>
          have same := Definition.refresh_of_renewed?_some renewed
          have sameName : resolved.name = definition.name := by
            rw [← same, Definition.name_refresh]
          rw [List.filterMap_cons_some renewed, List.foldl_cons, update_catalog]
          refine next ?_ ?_ rfl
          · rw [names_replace]
            exact distinct
          · rw [same]
            exact definitions_replace distinct order sameName

theorem resolveAll_catalog (distinct : registry.names.Nodup) :
    registry.catalog.resolveAll = (registry.resolveAll.1, registry.resolveAll.2.catalog) := by
  have stored := foldl_update distinct registry.environment (List.nil_append _).symm
  rw [List.nil_append] at stored
  rw [resolveAll_definitions]
  simp only [Catalog.resolveAll, registry_catalog, environment_catalog, stored]
  refine congrArg (Prod.mk · _) ?_
  simp only [resolveAll, List.filterMap_map]
  refine List.filterMap_congr fun definition _ => ?_
  cases resolves : definition.resolve registry.environment <;> simp [resolves]

theorem redeploy_catalog (wellFormed : registry.WellFormed) (kind : Kind)
    (name text : String) :
    registry.catalog.redeploy kind name text =
      registry.concluded (registry.redeploy kind name text) := by
  unfold Catalog.redeploy redeploy
  rw [Catalog.contains, find?_catalog, stage_catalog]
  cases found : registry.find? name with
  | none => rfl
  | some old =>
      cases staged : registry.stage kind name text with
      | error failure => rfl
      | ok definition =>
          obtain ⟨rfl, -, -, admissible⟩ := admissible_of_stage staged
          have present : definition.name ∈ registry.names := by
            by_contra absent
            rw [find?_eq_none.mpr absent] at found
            cases found
          have distinct := (wellFormed.replace admissible).names_nodup
          simp only [insert_of_old present, resolveAll_catalog distinct]
          rfl

theorem undeploy_catalog (registry : Registry) (name : String) :
    registry.catalog.undeploy name = registry.concluded (registry.undeploy name) := by
  unfold Catalog.undeploy undeploy
  rw [dependents_catalog, find?_catalog]
  cases registry.dependents name with
  | cons dependent others => cases registry.find? name <;> rfl
  | nil =>
      cases registry.find? name with
      | none => rfl
      | some definition =>
          refine congrArg (Prod.mk (Except.ok definition)) ?_
          simp [Catalog.remove, catalog, List.filter_map, Function.comp_def]

theorem deployEntries_catalog (registry : Registry) (entries : List ManifestEntry) :
    registry.catalog.deployEntries entries =
      ((Manifest.deployEntries registry entries).1,
        (Manifest.deployEntries registry entries).2.catalog) := by
  induction entries generalizing registry with
  | nil => rfl
  | cons entry entries induction =>
      rw [Catalog.deployEntries, Manifest.deployEntries, deploy_catalog]
      cases registry.deploy entry.kind entry.name entry.text with
      | ok result => exact induction result.2
      | error failure => simp only [concluded, induction]

end Registry

namespace Catalog

/-- The catalog after a command. -/
def step (catalog : Catalog) : Command → Catalog
  | .stage _ _ _ => catalog
  | .deploy kind name text => (catalog.deploy kind name text).2
  | .redeploy kind name text => (catalog.redeploy kind name text).2
  | .undeploy name => (catalog.undeploy name).2
  | .resolveAll => catalog.resolveAll.2
  | .deployManifest manifest => (catalog.deployEntries manifest.entries).2

def run (catalog : Catalog) (commands : List Command) : Catalog :=
  commands.foldl step catalog

theorem step_catalog {session : Session} (wellFormed : session.registry.WellFormed)
    (command : Command) :
    session.registry.catalog.step command = (session.step command).registry.catalog := by
  cases command with
  | stage kind name text => rfl
  | deploy kind name text =>
      rw [step, Registry.deploy_catalog, Session.step]
      cases session.registry.deploy kind name text <;> rfl
  | redeploy kind name text =>
      rw [step, Registry.redeploy_catalog wellFormed, Session.step]
      cases session.registry.redeploy kind name text <;> rfl
  | undeploy name =>
      rw [step, Registry.undeploy_catalog, Session.step]
      cases session.registry.undeploy name <;> rfl
  | resolveAll => rw [step, Registry.resolveAll_catalog wellFormed.names_nodup, Session.step]
  | deployManifest manifest =>
      rw [step, Registry.deployEntries_catalog, Session.step]
      rfl

/-- Commands lead an empty catalog to that of the registry of a session. -/
theorem run_empty (limit : Option Nat) (commands : List Command) :
    (empty limit).run commands = ((Session.start limit).run commands).registry.catalog := by
  have follow (session : Session) (wellFormed : session.registry.WellFormed) :
      session.registry.catalog.run commands =
        (session.run commands).registry.catalog := by
    induction commands generalizing session with
    | nil => rfl
    | cons command commands induction =>
        rw [run, List.foldl_cons, step_catalog wellFormed]
        exact induction _ (Session.wellFormed_step command wellFormed)
  exact follow (Session.start limit) (Registry.wellFormed_empty limit)

/-- In every catalog that commands lead to, keys are distinct, and what is stored under
a key has it as its name. -/
theorem keys_run (limit : Option Nat) (commands : List Command) :
    ((empty limit).run commands).keys.Nodup ∧
      ∀ key definition, (key, definition) ∈ ((empty limit).run commands).entries →
        definition.name = key := by
  rw [run_empty, Registry.keys_catalog]
  refine ⟨(Session.wellFormed_run limit commands).names_nodup, ?_⟩
  intro key definition stored
  obtain ⟨found, -, same⟩ := List.mem_map.mp stored
  cases same
  rfl

end Catalog

end Tapline
