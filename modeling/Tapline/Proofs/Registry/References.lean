import Tapline.Proofs.Registry.Session

/-!
# References between definitions

As long as no definition is replaced, the order of deployment is one in which
every definition resolves among the earlier ones.  Deploying keeps this, since a
definition is resolved before it is added.  Removing keeps it, since what is
removed is asked for nothing.  Resolving again changes nothing at all.
-/

namespace Tapline

namespace Registry

/-- Every definition resolves to itself. -/
def Settled (registry : Registry) : Prop :=
  ∀ definition ∈ registry.definitions,
    definition.resolve registry.environment = .ok definition

/-- Every definition resolves to itself among the earlier ones. -/
def Chronological (registry : Registry) : Prop :=
  ∀ earlier definition later,
    registry.definitions = earlier ++ definition :: later →
      definition.resolve (registry.part earlier).environment = .ok definition

variable {registry : Registry}

theorem Chronological.settled (wellFormed : registry.WellFormed)
    (chronological : registry.Chronological) : registry.Settled := by
  intro definition member
  obtain ⟨earlier, later, order⟩ := List.append_of_mem member
  have inside := sublist_of_order order
  exact (wellFormed.admissible definition member).resolve_of_answer
    (fun request label _ => wellFormed.extends_part inside request label)
    (chronological earlier definition later order)

/-- Resolving settled definitions again reports and changes nothing. -/
theorem Settled.resolveAll (settled : registry.Settled) :
    registry.resolveAll = ([], registry) := by
  have unchanged : registry.definitions.map (·.refresh registry.environment) =
      registry.definitions := by
    refine (List.map_congr_left fun definition member => ?_).trans (List.map_id _)
    simp [Definition.refresh, settled definition member, Except.toOption]
  apply Prod.ext
  · exact resolveAll_report_eq_nil.mpr fun definition member =>
      ⟨definition, settled definition member⟩
  · rw [resolveAll_definitions, unchanged]

theorem Chronological.deploy {grown : Registry} {kind : Kind} {name text : String}
    {added : Definition} (chronological : registry.Chronological)
    (deployed : registry.deploy kind name text = .ok (added, grown)) :
    grown.Chronological := by
  obtain ⟨-, staged, rfl⟩ := deploy_eq_ok.mp deployed
  obtain ⟨-, -, -, resolves⟩ := stage_eq_ok.mp staged
  intro earlier definition later order
  rcases List.eq_nil_or_concat later with rfl | ⟨others, last, rfl⟩
  · obtain ⟨same, last⟩ := List.append_inj' order rfl
    cases last
    subst same
    exact resolves
  · have regrouped : registry.definitions ++ [added] =
        (earlier ++ definition :: others) ++ [last] := by
      simpa using order
    exact chronological earlier definition others (List.append_inj' regrouped rfl).1

/-- What was removed had answered none of the requests of the other
definitions. -/
theorem answer?_of_undeploy (wellFormed : registry.WellFormed) {name : String}
    {removed : Definition} {smaller : Registry}
    (undeployed : registry.undeploy name = .ok (removed, smaller))
    {definition : Definition} (member : definition ∈ registry.definitions)
    (kept : definition.name ≠ name) {request : Request}
    (asked : definition.request? = some request) {definitions : List Definition}
    (sublist : definitions.Sublist registry.definitions) {label : String}
    (answer : (registry.part definitions).environment.answer? request = some label) :
    (registry.part (definitions.filter (·.name ≠ name))).environment.answer? request =
      some label := by
  obtain ⟨found, noDependents, -⟩ := undeploy_eq_ok.mp undeployed
  obtain ⟨present, named⟩ := (find?_eq_some wellFormed.names_nodup).mp found
  obtain ⟨target, inside, targetName, targetKind, labelled⟩ :=
    (answer?_eq_some (wellFormed.part sublist).names_nodup).mp answer
  have targetKept : target.name ≠ name := by
    intro same
    have targetRemoved : target = removed :=
      eq_of_name_eq wellFormed.names_nodup target (sublist.subset inside) removed
        present (same.trans named.symm)
    apply (dependents_eq_nil found).mp noDependents definition member kept
    rw [Definition.tapTarget?_of_request? asked, ← targetKind, ← targetName, same,
      targetRemoved]
  have remains : target ∈ definitions.filter (·.name ≠ name) :=
    List.mem_filter.mpr ⟨inside, by simpa using targetKept⟩
  have smaller : (definitions.filter (·.name ≠ name)).Sublist registry.definitions :=
    List.filter_sublist.trans sublist
  exact (answer?_eq_some (wellFormed.part smaller).names_nodup).mpr
    ⟨target, remains, targetName, targetKind, labelled⟩

theorem Chronological.undeploy (wellFormed : registry.WellFormed)
    (chronological : registry.Chronological) {name : String} {removed : Definition}
    {smaller : Registry}
    (undeployed : registry.undeploy name = .ok (removed, smaller)) :
    smaller.Chronological := by
  obtain ⟨-, -, rfl⟩ := undeploy_eq_ok.mp undeployed
  intro earlier definition later order
  obtain ⟨before, _, whole, rfl, rest⟩ := List.filter_eq_append_iff.mp order
  obtain ⟨dropped, after, rfl, gone, kept, -⟩ := List.filter_eq_cons_iff.mp rest
  have same : before.filter (·.name ≠ name) =
      (before ++ dropped).filter (·.name ≠ name) := by
    simpa using gone
  have split : registry.definitions = (before ++ dropped) ++ definition :: after := by
    rw [whole, List.append_assoc]
  have member : definition ∈ registry.definitions := by simp [split]
  have inside := sublist_of_order split
  rw [same]
  exact (wellFormed.admissible definition member).resolve_of_answer
    (fun request label asked => answer?_of_undeploy wellFormed undeployed member
      (by simpa using kept) asked inside)
    (chronological _ definition after split)

end Registry

def Command.isRedeploy : Command → Bool
  | .redeploy _ _ _ => true
  | _ => false

namespace Session

theorem chronological_step {session : Session} {command : Command}
    (unreplaced : command.isRedeploy = false)
    (wellFormed : session.registry.WellFormed)
    (chronological : session.registry.Chronological) :
    (session.step command).registry.Chronological := by
  apply registry_step Registry.Chronological chronological
  · exact fun holds deployed => holds.deploy deployed
  · rintro kind name text report after rfl
    cases unreplaced
  · exact fun undeployed => chronological.undeploy wellFormed undeployed
  · rw [(chronological.settled wellFormed).resolveAll]
    exact chronological

theorem chronological_run (limit : Option Nat) {commands : List Command}
    (unreplaced : ∀ command ∈ commands, command.isRedeploy = false) :
    ((start limit).run commands).registry.Chronological := by
  have atStart : (start limit).registry.Chronological := by
    simp [Registry.Chronological, start, Registry.empty]
  exact run_induction_of_wellFormed (·.registry.Chronological) (·.isRedeploy = false)
    chronological_step atStart unreplaced

/-- Without redeployment, whatever a tap by position taps was deployed earlier
under that name and with that kind, and the tap bears the label of the module at
that position.  So resolving everything again reports and changes nothing. -/
theorem references_run (limit : Option Nat) (commands : List Command)
    (unreplaced : ∀ command ∈ commands, command.isRedeploy = false) :
    let registry := ((start limit).run commands).registry
    (∀ earlier definition later,
      registry.definitions = earlier ++ definition :: later →
        ∀ channel kind position,
          definition.parsed.source = some channel → channel.kind = .tap kind →
            channel.position? = some position →
              ∃ target ∈ earlier, ∃ label,
                registry.find? channel.targetName = some target ∧
                  target.kind = kind ∧ target.tree.labelAt? position = some label ∧
                    definition.tree.source = some (channel.withIndex [label])) ∧
      registry.resolveAll = ([], registry) := by
  intro registry
  have wellFormed : registry.WellFormed := wellFormed_run limit commands
  have chronological : registry.Chronological := chronological_run limit unreplaced
  refine ⟨?_, (chronological.settled wellFormed).resolveAll⟩
  intro earlier definition later order channel kind position source tap asked
  have inside := Registry.sublist_of_order order
  have request : channel.request? = some ⟨kind, channel.targetName, position⟩ :=
    Channel.request?_eq_some.mpr ⟨tap, asked, rfl⟩
  obtain ⟨label, answer, labelled⟩ :=
    (wellFormed.admissible definition (by simp [order])).source_of_resolve
      (chronological earlier definition later order) source request
  obtain ⟨target, member, targetName, targetKind, found⟩ :=
    (Registry.answer?_eq_some (wellFormed.part inside).names_nodup).mp answer
  exact ⟨target, member, label,
    (Registry.find?_eq_some wellFormed.names_nodup).mpr
      ⟨inside.subset member, targetName⟩, targetKind, found, labelled⟩

/-- A tap in odd spelling, between commands that fail. -/
theorem references_run_audit :
    let commands : List Command :=
      [.deployManifest ⟨1,
          [⟨"bad", .stream, "http |"⟩, ⟨"main", .stream, "http | file"⟩]⟩,
        .deploy .stream "audit" "tap:STREAM:main.01 > log", .undeploy "main",
        .stage .job "main" "batch", .resolveAll]
    let http : Module := ⟨"http", none, [], ⟨0, 4⟩⟩
    let file : Module := ⟨"file", none, [], ⟨7, 11⟩⟩
    let log : Module := ⟨"log", none, [], ⟨21, 24⟩⟩
    let tap : Channel := ⟨.tap .stream, ["STREAM", "main"], ["01"], ⟨0, 18⟩⟩
    let mainTree : Pipeline := ⟨none, none, [http, file], none, ⟨0, 11⟩⟩
    let auditTree : Pipeline := ⟨none, some tap, [log], none, ⟨0, 24⟩⟩
    let main : Definition := ⟨"main", .stream, "http | file", mainTree, some mainTree⟩
    let audit : Definition :=
      ⟨"audit", .stream, "tap:STREAM:main.01 > log", auditTree,
        some { auditTree with source := some (tap.withIndex ["file"]) }⟩
    let registry := ((start (some 40)).run commands).registry
    (∀ command ∈ commands, command.isRedeploy = false) ∧
      registry.definitions = [main] ++ audit :: [] ∧
      (∃ target ∈ [main], ∃ label,
        registry.find? tap.targetName = some target ∧ target.kind = .stream ∧
          target.tree.labelAt? 1 = some label ∧
            audit.tree.source = some (tap.withIndex [label])) ∧
      registry.resolveAll = ([], registry) := by
  intro commands http file log tap mainTree auditTree main audit registry
  have unreplaced : ∀ command ∈ commands, command.isRedeploy = false := by decide
  have order : registry.definitions = [main] ++ audit :: [] := by decide +kernel
  obtain ⟨references, resolved⟩ := references_run (some 40) commands unreplaced
  exact ⟨unreplaced, order,
    references [main] audit [] order tap .stream 1 rfl rfl (by decide), resolved⟩

end Session

end Tapline
