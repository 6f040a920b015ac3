import Mathlib.Logic.Basic
import Tapline.Proofs.Registry.Session

/-!
# Resolving all definitions again

All definitions are resolved against the registry as it was, while their trees
are being replaced.  That makes no difference: a tree is only asked for its
labels, and these are the ones that were written.  So afterwards every definition
is up to date in the registry as it then stands, or it does not resolve there, is
reported once and is the definition it was.  Doing the same again finds nothing
left to do.
-/

namespace Tapline

namespace Definition

/-- What resolving the definition has to report. -/
def complaint? (environment : Environment) (definition : Definition) : Option Failure :=
  match definition.resolve environment with
  | .ok _ => none
  | .error failure => some failure

theorem resolve_eq_error {environment : Environment} {definition : Definition}
    {failure : Failure} :
    definition.resolve environment = .error failure ↔
      ∃ diagnostic, definition.parsed.resolve environment = .error diagnostic ∧
        failure = .resolution definition.name diagnostic := by
  unfold resolve
  cases definition.parsed.resolve environment <;> simp [eq_comm]

theorem resolve_of_sameLabels {left right : Environment} (same : left.SameLabels right)
    (definition : Definition) : definition.resolve left = definition.resolve right := by
  simp only [resolve, Pipeline.resolve_of_sameLabels same]

private theorem complaint?_of_sameLabels {left right : Environment} (same : left.SameLabels right)
    (definition : Definition) :
    definition.complaint? left = definition.complaint? right := by
  simp only [complaint?, resolve_of_sameLabels same]

private theorem refresh_of_sameLabels {left right : Environment} (same : left.SameLabels right)
    (definition : Definition) : definition.refresh left = definition.refresh right := by
  simp only [refresh, resolve_of_sameLabels same]

theorem complaint?_of_ok {environment : Environment} {definition resolved : Definition}
    (resolves : definition.resolve environment = .ok resolved) :
    definition.complaint? environment = none := by
  simp [complaint?, resolves]

theorem complaint?_of_error {environment : Environment} {definition : Definition}
    {failure : Failure} (fails : definition.resolve environment = .error failure) :
    definition.complaint? environment = some failure := by
  simp [complaint?, fails]

theorem name_of_complaint? {environment : Environment} {definition : Definition}
    {failure : Failure} (complaint : definition.complaint? environment = some failure) :
    failure.name = definition.name := by
  cases resolves : definition.resolve environment with
  | ok resolved => simp [complaint?_of_ok resolves] at complaint
  | error found =>
      rw [complaint?_of_error resolves, Option.some.injEq] at complaint
      subst complaint
      obtain ⟨diagnostic, -, rfl⟩ := resolve_eq_error.mp resolves
      rfl

theorem resolve_refresh (environment : Environment) (definition : Definition) :
    (definition.refresh environment).resolve environment =
      definition.resolve environment :=
  resolve_congr (unresolved_refresh environment definition) environment

private theorem complaint?_refresh (environment : Environment) (definition : Definition) :
    (definition.refresh environment).complaint? environment =
      definition.complaint? environment := by
  simp only [complaint?, resolve_refresh]

private theorem refresh_refresh (environment : Environment) (definition : Definition) :
    (definition.refresh environment).refresh environment =
      definition.refresh environment := by
  have again := resolve_refresh environment definition
  cases resolves : definition.resolve environment with
  | ok resolved =>
      rw [resolves] at again
      rw [refresh_of_ok again, refresh_of_ok resolves]
  | error failure =>
      rw [resolves] at again
      rw [refresh_of_error again]

section Complaints

variable (environment : Environment) {definitions : List Definition}

private theorem map_name_complaints_sublist :
    ((definitions.filterMap (·.complaint? environment)).map Failure.name).Sublist
      (definitions.map Definition.name) := by
  induction definitions with
  | nil => exact List.Sublist.refl _
  | cons definition definitions induction =>
      cases complaint : definition.complaint? environment with
      | none =>
          rw [List.filterMap_cons_none complaint]
          exact induction.cons definition.name
      | some failure =>
          rw [List.filterMap_cons_some complaint, List.map_cons, List.map_cons,
            name_of_complaint? complaint]
          exact induction.cons_cons definition.name

private theorem filter_complaints_eq_nil {name : String}
    (absent : name ∉ definitions.map Definition.name) :
    (definitions.filterMap (·.complaint? environment)).filter (·.name = name) = [] := by
  rw [List.filter_eq_nil_iff]
  intro failure member named
  apply absent
  rw [← of_decide_eq_true named]
  exact (map_name_complaints_sublist environment).subset (List.mem_map_of_mem member)

/-- Of several definitions with distinct names, each accounts for all failures
under its name. -/
theorem filter_complaints (distinct : (definitions.map Definition.name).Nodup)
    {definition : Definition} (member : definition ∈ definitions) :
    (definitions.filterMap (·.complaint? environment)).filter
        (·.name = definition.name) =
      (definition.complaint? environment).toList := by
  obtain ⟨earlier, later, rfl⟩ := List.append_of_mem member
  obtain ⟨absentEarlier, absentLater⟩ := name_not_mem distinct
  rw [List.filterMap_append, List.filter_append,
    filter_complaints_eq_nil environment absentEarlier, List.nil_append]
  cases complaint : definition.complaint? environment with
  | none =>
      rw [List.filterMap_cons_none complaint]
      exact filter_complaints_eq_nil environment absentLater
  | some failure =>
      rw [List.filterMap_cons_some complaint, List.filter_cons_of_pos
        (by simpa using name_of_complaint? complaint),
        filter_complaints_eq_nil environment absentLater]
      rfl

end Complaints

end Definition

namespace Registry

variable {registry : Registry}

theorem resolveAll_report (registry : Registry) :
    registry.resolveAll.1 =
      registry.definitions.filterMap (·.complaint? registry.environment) := by
  rw [resolveAll, List.filterMap_map]
  apply congrArg (registry.definitions.filterMap ·)
  funext definition
  cases resolves : definition.resolve registry.environment <;>
    simp only [Function.comp_apply, Definition.complaint?, resolves]

theorem environment_find? (registry : Registry) (kind : Kind) (name : String) :
    registry.environment.find? kind name =
      ((registry.find? name).filter (·.kind = kind)).map Definition.tree :=
  rfl

theorem find?_resolveAll (registry : Registry) (name : String) :
    registry.resolveAll.2.find? name =
      (registry.find? name).map (·.refresh registry.environment) := by
  rw [resolveAll_definitions]
  simp only [find?, List.find?_map, Function.comp_def, Definition.name_refresh]

/-- Resolving all definitions changes no label that a tap can ask for. -/
theorem sameLabels_resolveAll (wellFormed : registry.WellFormed) :
    registry.resolveAll.2.environment.SameLabels registry.environment := by
  intro kind name
  rw [environment_find?, environment_find?, find?_resolveAll]
  cases found : registry.find? name with
  | none => rfl
  | some definition =>
      have admissible := wellFormed.admissible definition (List.mem_of_find?_eq_some found)
      have same := Definition.unresolved_refresh registry.environment definition
      have sameKind : (definition.refresh registry.environment).kind = definition.kind :=
        (congrArg Definition.kind same :)
      have labels : (definition.refresh registry.environment).tree.labels =
          definition.tree.labels := by
        rw [admissible.labels_tree, (admissible.refresh _).labels_tree]
        exact congrArg (·.parsed.labels) same
      by_cases ofKind : definition.kind = kind
      · simp [Option.filter_some, ofKind, sameKind, labels]
      · simp [Option.filter_some, ofKind, sameKind]

/-- The definition resolves in the registry to the tree that it has, and is not
reported. -/
def UpToDate (registry : Registry) (report : List Failure)
    (definition : Definition) : Prop :=
  definition.parsed.resolve registry.environment = .ok definition.tree ∧
    report.filter (·.name = definition.name) = []

/-- The definition does not resolve in the registry `after`.  It is reported for
that and nothing else, and is the definition that `before` has. -/
def Broken (before : Registry) (report : List Failure) (after : Registry)
    (definition : Definition) : Prop :=
  ∃ diagnostic, definition.parsed.resolve after.environment = .error diagnostic ∧
    report.filter (·.name = definition.name) =
        [.resolution definition.name diagnostic] ∧
      before.find? definition.name = some definition

/-- The registry `after` and the report are what resolving all definitions of
`before` ought to lead to. -/
structure Reresolved (before : Registry) (report : List Failure)
    (after : Registry) : Prop where
  limit_eq : after.limit = before.limit
  /-- Nothing but the resolved trees may differ. -/
  unresolved_eq : after.definitions.map Definition.unresolved =
    before.definitions.map Definition.unresolved
  outcome : ∀ definition ∈ after.definitions,
    Xor (after.UpToDate report definition) (Broken before report after definition)
  deployment_order : (report.map Failure.name).Sublist after.names
  again : after.resolveAll = (report, after)

theorem Broken.not_upToDate {before after : Registry} {report : List Failure}
    {definition : Definition} (broken : Broken before report after definition) :
    ¬after.UpToDate report definition := by
  obtain ⟨diagnostic, fails, -, -⟩ := broken
  intro upToDate
  rw [upToDate.1] at fails
  cases fails

theorem resolveAll_resolveAll (wellFormed : registry.WellFormed) :
    registry.resolveAll.2.resolveAll = registry.resolveAll := by
  have same := sameLabels_resolveAll wellFormed
  have definitions : registry.resolveAll.2.definitions =
      registry.definitions.map (·.refresh registry.environment) := by
    rw [resolveAll_definitions]
  have complaints (definition : Definition) :
      (definition.refresh registry.environment).complaint?
          registry.resolveAll.2.environment =
        definition.complaint? registry.environment :=
    (Definition.complaint?_of_sameLabels same _).trans
      (Definition.complaint?_refresh _ _)
  have refreshed (definition : Definition) :
      (definition.refresh registry.environment).refresh
          registry.resolveAll.2.environment =
        definition.refresh registry.environment :=
    (Definition.refresh_of_sameLabels same _).trans (Definition.refresh_refresh _ _)
  apply Prod.ext
  · rw [resolveAll_report, resolveAll_report, definitions, List.filterMap_map]
    simp only [Function.comp_def, complaints]
  · rw [resolveAll_definitions registry.resolveAll.2, definitions, List.map_map]
    simp only [Function.comp_def, refreshed]
    rw [resolveAll_definitions]

theorem reresolved_resolveAll (wellFormed : registry.WellFormed) :
    registry.Reresolved registry.resolveAll.1 registry.resolveAll.2 := by
  have same := sameLabels_resolveAll wellFormed
  constructor
  · rfl
  · rw [resolveAll_definitions]
    exact Definition.map_unresolved_refresh registry.environment registry.definitions
  · intro definition member
    rw [resolveAll_definitions] at member
    obtain ⟨old, inside, rfl⟩ := List.mem_map.mp member
    have reported := Definition.filter_complaints registry.environment
      wellFormed.names_nodup inside
    rw [← resolveAll_report] at reported
    cases resolves : old.resolve registry.environment with
    | ok resolved =>
        rw [Definition.complaint?_of_ok resolves] at reported
        obtain ⟨tree, treeResolves, rfl⟩ := Definition.resolve_eq_ok.mp resolves
        rw [Definition.refresh_of_ok resolves]
        have upToDate : registry.resolveAll.2.UpToDate registry.resolveAll.1
            { old with resolved := some tree } :=
          ⟨(Pipeline.resolve_of_sameLabels same _).trans treeResolves, reported⟩
        exact .inl ⟨upToDate, fun broken => broken.not_upToDate upToDate⟩
    | error failure =>
        rw [Definition.complaint?_of_error resolves] at reported
        obtain ⟨diagnostic, treeFails, rfl⟩ := Definition.resolve_eq_error.mp resolves
        rw [Definition.refresh_of_error resolves]
        have broken : Broken registry registry.resolveAll.1 registry.resolveAll.2 old :=
          ⟨diagnostic, (Pipeline.resolve_of_sameLabels same _).trans treeFails, reported,
            (find?_eq_some wellFormed.names_nodup).mpr ⟨inside, rfl⟩⟩
        exact .inr ⟨broken, broken.not_upToDate⟩
  · rw [names_resolveAll, resolveAll_report]
    exact Definition.map_name_complaints_sublist registry.environment
  · exact resolveAll_resolveAll wellFormed

end Registry

namespace Session

/-- In every registry that a session reaches, resolving all definitions leaves each
of them either up to date or broken, and so does replacing a definition, counted
from the moment when the new one is in its place. -/
theorem reresolved_run (limit : Option Nat) (commands : List Command) :
    let registry := ((start limit).run commands).registry
    registry.Reresolved registry.resolveAll.1 registry.resolveAll.2 ∧
      ∀ kind name text report after,
        registry.redeploy kind name text = .ok (report, after) →
          ∃ staged, registry.stage kind name text = .ok staged ∧
            (registry.replace staged).Reresolved report after := by
  intro registry
  have wellFormed : registry.WellFormed := wellFormed_run limit commands
  refine ⟨Registry.reresolved_resolveAll wellFormed, ?_⟩
  intro kind name text report after redeployed
  obtain ⟨-, staged, isStaged, resolved⟩ := Registry.redeploy_eq_ok.mp redeployed
  obtain ⟨-, -, -, admissible⟩ := Registry.admissible_of_stage isStaged
  have reresolved := Registry.reresolved_resolveAll (wellFormed.replace admissible)
  rw [resolved] at reresolved
  exact ⟨staged, isStaged, reresolved⟩

/-- Of two taps into a definition that gets shorter, one is given a new label and
the other is broken. -/
theorem reresolved_run_shortened :
    let registry := ((start none).run
      [.deploy .stream "main" "http | transform | file",
        .deploy .stream "audit" "tap:main.2 > log",
        .deploy .stream "first" "tap:main > log"]).registry
    let report : List Failure :=
      [.resolution "audit" ⟨.tapIndexOutOfRange "main" "2" 2, ⟨0, 10⟩⟩]
    ∃ after staged, registry.redeploy .stream "main" "jms | file" = .ok (report, after) ∧
      registry.stage .stream "main" "jms | file" = .ok staged ∧
        (registry.replace staged).Reresolved report after := by
  intro registry report
  have reported :
      (registry.redeploy .stream "main" "jms | file").toOption.map Prod.fst =
        some report := by
    decide +kernel
  obtain ⟨⟨_, after⟩, succeeds, rfl⟩ := Option.map_eq_some_iff.mp reported
  have redeployed := eq_ok_of_toOption succeeds
  obtain ⟨-, replaced⟩ := reresolved_run none
    [.deploy .stream "main" "http | transform | file",
      .deploy .stream "audit" "tap:main.2 > log",
      .deploy .stream "first" "tap:main > log"]
  obtain ⟨staged, isStaged, reresolved⟩ := replaced _ _ _ _ _ redeployed
  exact ⟨after, staged, redeployed, isStaged, reresolved⟩

end Session

end Tapline
