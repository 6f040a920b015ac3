import Mathlib.Data.List.Nodup
import Tapline.Manifest
import Tapline.Proofs.Outcome
import Tapline.Proofs.Resolution

/-!
# What the operations on a registry do

Each operation is described by the conditions under which it succeeds and the
registry it then returns.  Staging is described through the definition it
returns, which is the one that resolves to itself.
-/

namespace Tapline

/-- Where keys are distinct, looking for the key of an item finds that item. -/
theorem find?_key_eq_some {α κ : Type} [DecidableEq κ] {key : α → κ} {items : List α}
    (distinct : (items.map key).Nodup) {wanted : κ} {item : α} :
    items.find? (key · = wanted) = some item ↔ item ∈ items ∧ key item = wanted := by
  constructor
  · intro found
    exact ⟨List.mem_of_find?_eq_some found, by simpa using List.find?_some found⟩
  · rintro ⟨member, rfl⟩
    cases found : items.find? (key · = key item) with
    | none =>
        have absent := List.find?_eq_none.mp found item member
        simp at absent
    | some other =>
        have same : key other = key item := by simpa using List.find?_some found
        rw [List.inj_on_of_nodup_map distinct (List.mem_of_find?_eq_some found) member same]

namespace Definition

/-- The definition as it is before it has been resolved. -/
def unresolved (definition : Definition) : Definition :=
  { definition with resolved := none }

theorem parse_eq_ok {kind : Kind} {name text : String} {definition : Definition} :
    parse kind name text = .ok definition ↔
      ∃ parsed, Pipeline.parse kind text = .ok parsed ∧
        (∀ declared ∈ parsed.name, declared = name) ∧
          definition = ⟨name, kind, text, parsed, none⟩ := by
  unfold parse
  cases read : Pipeline.parse kind text with
  | error => simp
  | ok parsed =>
      cases declared : parsed.name with
      | none => simp [declared, eq_comm]
      | some declaredName =>
          by_cases same : declaredName = name
          · simp [declared, same, eq_comm]
          · simp [declared, same]

theorem resolve_eq_ok {environment : Environment} {definition resolved : Definition} :
    definition.resolve environment = .ok resolved ↔
      ∃ tree, definition.parsed.resolve environment = .ok tree ∧
        resolved = { definition with resolved := some tree } := by
  unfold resolve
  cases definition.parsed.resolve environment <;> simp [eq_comm]

private theorem resolve_unresolved (environment : Environment) (definition : Definition) :
    definition.unresolved.resolve environment = definition.resolve environment :=
  rfl

theorem unresolved_of_resolve {environment : Environment}
    {definition resolved : Definition}
    (resolves : definition.resolve environment = .ok resolved) :
    resolved.unresolved = definition.unresolved := by
  obtain ⟨tree, -, rfl⟩ := resolve_eq_ok.mp resolves
  rfl

private theorem unresolved_of_parse {kind : Kind} {name text : String}
    {definition : Definition} (read : parse kind name text = .ok definition) :
    definition.unresolved = definition := by
  obtain ⟨parsed, -, -, rfl⟩ := parse_eq_ok.mp read
  rfl

theorem resolve_congr {left right : Definition}
    (same : left.unresolved = right.unresolved) (environment : Environment) :
    left.resolve environment = right.resolve environment := by
  rw [← resolve_unresolved, same, resolve_unresolved]

theorem name_not_mem {earlier later : List Definition} {definition : Definition}
    (distinct : ((earlier ++ definition :: later).map Definition.name).Nodup) :
    definition.name ∉ earlier.map Definition.name ∧
      definition.name ∉ later.map Definition.name := by
  rw [List.map_append, List.map_cons, List.nodup_append, List.nodup_cons] at distinct
  obtain ⟨-, ⟨absentLater, -⟩, apart⟩ := distinct
  constructor
  · intro inside
    exact apart _ inside _ List.mem_cons_self rfl
  · exact absentLater

end Definition

namespace Registry

theorem eq_of_name_eq {registry : Registry} (distinct : registry.names.Nodup) :
    ∀ left ∈ registry.definitions, ∀ right ∈ registry.definitions,
      left.name = right.name → left = right :=
  fun _ inLeft _ inRight => List.inj_on_of_nodup_map distinct inLeft inRight

theorem find?_eq_some {registry : Registry} {name : String} {definition : Definition}
    (distinct : registry.names.Nodup) :
    registry.find? name = some definition ↔
      definition ∈ registry.definitions ∧ definition.name = name :=
  find?_key_eq_some distinct

theorem find?_eq_none {registry : Registry} {name : String} :
    registry.find? name = none ↔ name ∉ registry.names := by
  simp [find?, names]

/-- A request is answered by the definition with the name and kind asked for. -/
theorem answer?_eq_some {registry : Registry} (distinct : registry.names.Nodup)
    {request : Request} {label : String} :
    registry.environment.answer? request = some label ↔
      ∃ target ∈ registry.definitions, target.name = request.name ∧
        target.kind = request.kind ∧
          target.tree.labelAt? request.position = some label := by
  simp only [Environment.answer?, environment, Option.bind_eq_some_iff,
    Option.map_eq_some_iff, Option.filter_eq_some_iff, find?_eq_some distinct]
  constructor
  · rintro ⟨_, ⟨target, ⟨⟨member, named⟩, ofKind⟩, rfl⟩, labelled⟩
    exact ⟨target, member, named, by simpa using ofKind, labelled⟩
  · rintro ⟨target, member, named, ofKind, labelled⟩
    have sameKind : decide (target.kind = request.kind) = true := by simpa using ofKind
    exact ⟨_, ⟨target, ⟨⟨member, named⟩, sameKind⟩, rfl⟩, labelled⟩

/-- A staged definition fits, is what its text spells, does not tap itself, and
resolves to itself. -/
theorem stage_eq_ok {registry : Registry} {kind : Kind} {name text : String}
    {definition : Definition} :
    registry.stage kind name text = .ok definition ↔
      registry.excess? text = none ∧
        Definition.parse kind name text = .ok definition.unresolved ∧
          definition.tapTarget? ≠ some (kind, name) ∧
            definition.resolve registry.environment = .ok definition := by
  unfold stage
  cases fits : registry.excess? text with
  | some excess => simp
  | none =>
      simp only [bind_eq_ok, true_and]
      constructor
      · rintro ⟨parsed, read, admitted⟩
        split at admitted
        · simp at admitted
        · rename_i noSelfTap
          have same : definition.unresolved = parsed :=
            (Definition.unresolved_of_resolve admitted).trans
              (Definition.unresolved_of_parse read)
          subst same
          exact ⟨read, noSelfTap, admitted⟩
      · rintro ⟨read, noSelfTap, resolves⟩
        exact ⟨_, read, (if_neg noSelfTap).trans resolves⟩

theorem deploy_eq_ok {registry grown : Registry} {kind : Kind} {name text : String}
    {definition : Definition} :
    registry.deploy kind name text = .ok (definition, grown) ↔
      name ∉ registry.names ∧ registry.stage kind name text = .ok definition ∧
        grown =
          { registry with definitions := registry.definitions ++ [definition] } := by
  rw [← find?_eq_none]
  unfold deploy
  cases registry.find? name with
  | some existing => simp
  | none =>
      simp only [bind_eq_ok, Except.ok.injEq, Prod.mk.injEq, true_and]
      constructor
      · rintro ⟨_, staged, rfl, rfl⟩
        exact ⟨staged, rfl⟩
      · rintro ⟨staged, rfl⟩
        exact ⟨definition, staged, rfl, rfl⟩

theorem redeploy_eq_ok {registry after : Registry} {kind : Kind} {name text : String}
    {report : List Failure} :
    registry.redeploy kind name text = .ok (report, after) ↔
      name ∈ registry.names ∧
        ∃ definition, registry.stage kind name text = .ok definition ∧
          (registry.replace definition).resolveAll = (report, after) := by
  have missing := @find?_eq_none registry name
  unfold redeploy
  cases found : registry.find? name with
  | none => simp [missing.mp found]
  | some existing =>
      have present : name ∈ registry.names := by simpa [found] using missing
      simp [present, bind_eq_ok]

theorem undeploy_eq_ok {registry after : Registry} {name : String}
    {definition : Definition} :
    registry.undeploy name = .ok (definition, after) ↔
      registry.find? name = some definition ∧ registry.dependents name = [] ∧
        after = { registry with
          definitions := registry.definitions.filter (·.name ≠ name) } := by
  unfold undeploy
  cases registry.find? name <;> cases registry.dependents name <;> simp [eq_comm]

/-- Nothing taps a definition without dependents, except perhaps itself. -/
theorem dependents_eq_nil {registry : Registry} {name : String} {target : Definition}
    (found : registry.find? name = some target) :
    registry.dependents name = [] ↔
      ∀ definition ∈ registry.definitions, definition.name ≠ name →
        definition.tapTarget? ≠ some (target.kind, name) := by
  simp [dependents, found]

end Registry

/-- The definition resolved anew, or as it was if that fails. -/
def Definition.refresh (environment : Environment) (definition : Definition) :
    Definition :=
  (definition.resolve environment).toOption.getD definition

theorem Definition.refresh_of_ok {environment : Environment}
    {definition resolved : Definition}
    (resolves : definition.resolve environment = .ok resolved) :
    definition.refresh environment = resolved := by
  simp [refresh, resolves, Except.toOption]

theorem Definition.refresh_of_error {environment : Environment}
    {definition : Definition} {failure : Failure}
    (fails : definition.resolve environment = .error failure) :
    definition.refresh environment = definition := by
  simp [refresh, fails, Except.toOption]

namespace Registry

theorem resolveAll_definitions (registry : Registry) :
    registry.resolveAll.2 =
      { registry with
        definitions := registry.definitions.map (·.refresh registry.environment) } := by
  simp only [resolveAll, List.map_map, mk.injEq, true_and]
  refine List.map_congr_left fun definition _ => ?_
  cases resolves : definition.resolve registry.environment <;>
    simp [Definition.refresh, resolves, Except.toOption]

theorem resolveAll_report_eq_nil {registry : Registry} :
    registry.resolveAll.1 = [] ↔
      ∀ definition ∈ registry.definitions, ∃ resolved,
        definition.resolve registry.environment = .ok resolved := by
  simp only [resolveAll, List.filterMap_eq_nil_iff, List.mem_map]
  constructor
  · intro silent definition member
    have quiet := silent _ ⟨definition, member, rfl⟩
    cases resolves : definition.resolve registry.environment with
    | error failure => simp [resolves] at quiet
    | ok resolved => exact ⟨resolved, rfl⟩
  · rintro succeeds _ ⟨definition, member, rfl⟩
    obtain ⟨resolved, resolves⟩ := succeeds definition member
    simp [resolves]

end Registry

end Tapline
