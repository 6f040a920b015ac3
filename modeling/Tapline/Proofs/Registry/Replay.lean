import Tapline.Proofs.Registry.References
import Tapline.Proofs.Registry.Reresolution

/-!
# Deploying a registry's manifest anew

Redeployment puts a definition in the place of another, so the order of a
registry need not be one in which taps follow their targets.  As long as the last
report is empty, every definition still resolves to itself.  Under that condition
the manifest of the registry deploys without failures exactly when the taps by
position follow their targets, and then the registry that comes out is the same.
-/

namespace Tapline

namespace Registry

variable {registry : Registry}

theorem settled_empty (limit : Option Nat) : (empty limit).Settled := by
  simp [Settled, empty]

theorem Settled.deploy {grown : Registry} {kind : Kind} {name text : String}
    {added : Definition} (wellFormed : registry.WellFormed)
    (settled : registry.Settled)
    (deployed : registry.deploy kind name text = .ok (added, grown)) :
    grown.Settled := by
  have grownFormed := wellFormed.deploy deployed
  obtain ⟨-, staged, rfl⟩ := deploy_eq_ok.mp deployed
  obtain ⟨-, -, -, resolves⟩ := stage_eq_ok.mp staged
  have larger := grownFormed.extends_part (List.sublist_append_left _ [added])
  intro definition member
  have before : definition.resolve registry.environment = .ok definition := by
    rcases List.mem_append.mp member with old | new
    · exact settled definition old
    · rw [List.mem_singleton.mp new]
      exact resolves
  exact (grownFormed.admissible definition member).resolve_of_answer
    (fun request label _ => larger request label) before

theorem Settled.undeploy (wellFormed : registry.WellFormed) (settled : registry.Settled)
    {name : String} {removed : Definition} {smaller : Registry}
    (undeployed : registry.undeploy name = .ok (removed, smaller)) :
    smaller.Settled := by
  obtain ⟨-, -, rfl⟩ := undeploy_eq_ok.mp undeployed
  intro definition remains
  obtain ⟨member, kept⟩ := List.mem_filter.mp remains
  exact (wellFormed.admissible definition member).resolve_of_answer
    (fun request label asked => answer?_of_undeploy wellFormed undeployed member
      (by simpa using kept) asked (List.Sublist.refl _))
    (settled definition member)

theorem settled_of_resolveAll (wellFormed : registry.WellFormed)
    (silent : registry.resolveAll.1 = []) : registry.resolveAll.2.Settled := by
  intro definition member
  rw [resolveAll_definitions] at member
  obtain ⟨old, inside, rfl⟩ := List.mem_map.mp member
  obtain ⟨resolved, resolves⟩ := resolveAll_report_eq_nil.mp silent old inside
  rw [Definition.refresh_of_ok resolves,
    Definition.resolve_congr (Definition.unresolved_of_resolve resolves)]
  exact (Definition.resolve_of_sameLabels (sameLabels_resolveAll wellFormed) old).trans
    resolves

/-- Every tap by position comes after what it taps. -/
def TapsFollow (registry : Registry) : Prop :=
  ∀ earlier definition later,
    registry.definitions = earlier ++ definition :: later →
      ∀ request, definition.request? = some request →
        ∃ target ∈ earlier, target.name = request.name ∧ target.kind = request.kind

/-- A definition that resolves finds what it asks for among the earlier ones
exactly when that is among them at all. -/
theorem Settled.chronological_iff (wellFormed : registry.WellFormed)
    (settled : registry.Settled) : registry.Chronological ↔ registry.TapsFollow := by
  constructor
  · intro chronological earlier definition later order request asked
    have inside := sublist_of_order order
    obtain ⟨channel, source, channelAsked⟩ := Option.bind_eq_some_iff.mp asked
    obtain ⟨label, answer, -⟩ :=
      (wellFormed.admissible definition (by simp [order])).source_of_resolve
        (chronological earlier definition later order) source channelAsked
    obtain ⟨target, member, targetName, targetKind, -⟩ :=
      (answer?_eq_some (wellFormed.part inside).names_nodup).mp answer
    exact ⟨target, member, targetName, targetKind⟩
  · intro follow earlier definition later order
    have inside := sublist_of_order order
    have member : definition ∈ registry.definitions := by simp [order]
    refine (wellFormed.admissible definition member).resolve_of_answer ?_
      (settled definition member)
    intro request label asked answer
    obtain ⟨target, early, earlyName, earlyKind⟩ :=
      follow earlier definition later order request asked
    obtain ⟨found, present, foundName, foundKind, labelled⟩ :=
      (answer?_eq_some wellFormed.names_nodup).mp answer
    obtain rfl : target = found :=
      eq_of_name_eq wellFormed.names_nodup target (inside.subset early) found present
        (earlyName.trans foundName.symm)
    exact (answer?_eq_some (wellFormed.part inside).names_nodup).mpr
      ⟨target, early, earlyName, earlyKind, labelled⟩

private theorem deploy_again (wellFormed : registry.WellFormed)
    {earlier later : List Definition} {definition : Definition}
    (order : registry.definitions = earlier ++ definition :: later)
    (resolves : definition.resolve (registry.part earlier).environment =
      .ok definition) :
    (registry.part earlier).deploy definition.kind definition.name definition.text =
      .ok (definition, registry.part (earlier ++ [definition])) := by
  have admissible := wellFormed.admissible definition (by simp [order])
  refine deploy_eq_ok.mpr ⟨?_, stage_eq_ok.mpr ⟨admissible.fits, admissible.read,
    admissible.no_self_tap, resolves⟩, rfl⟩
  have distinct := wellFormed.names_nodup
  rw [names, order] at distinct
  exact (Definition.name_not_mem distinct).1

/-- If anything is deployed for a settled definition behind the earlier ones, it
is that definition. -/
theorem Settled.resolve_of_deploy (wellFormed : registry.WellFormed)
    (settled : registry.Settled) {earlier later : List Definition}
    {definition deployed : Definition} {grown : Registry}
    (order : registry.definitions = earlier ++ definition :: later)
    (again : (registry.part earlier).deploy definition.kind definition.name
      definition.text = .ok (deployed, grown)) :
    definition.resolve (registry.part earlier).environment = .ok definition := by
  have member : definition ∈ registry.definitions := by simp [order]
  have inside := sublist_of_order order
  have admissible := wellFormed.admissible definition member
  obtain ⟨-, staged, -⟩ := deploy_eq_ok.mp again
  obtain ⟨-, read, -, resolves⟩ := stage_eq_ok.mp staged
  have sameText : definition.unresolved = deployed.unresolved :=
    Except.ok.inj (admissible.read.symm.trans read)
  rw [← Definition.resolve_congr sameText] at resolves
  have inFull : definition.resolve registry.environment = .ok deployed :=
    admissible.resolve_of_answer
      (fun request label _ => wellFormed.extends_part inside request label) resolves
  obtain rfl : definition = deployed :=
    Except.ok.inj ((settled definition member).symm.trans inFull)
  exact resolves

end Registry

def Definition.entry (definition : Definition) : ManifestEntry :=
  ⟨definition.name, definition.kind, definition.text⟩

namespace Manifest

open Registry

variable {registry : Registry}

/-- What resolves among the earlier definitions is deployed again, one after the
other. -/
theorem deployEntries_of_chronological (wellFormed : registry.WellFormed)
    (chronological : registry.Chronological) {earlier later : List Definition}
    (order : registry.definitions = earlier ++ later) :
    deployEntries (registry.part earlier) (later.map Definition.entry) =
      ([], registry) := by
  induction later generalizing earlier with
  | nil =>
      rw [List.append_nil] at order
      simp [deployEntries, part, ← order]
  | cons definition later induction =>
      have again := deploy_again wellFormed order
        (chronological earlier definition later order)
      have orderNext : registry.definitions = (earlier ++ [definition]) ++ later := by
        simpa using order
      simp only [List.map_cons, deployEntries, Definition.entry, again]
      exact induction orderNext

theorem chronological_of_deployEntries (wellFormed : registry.WellFormed)
    (settled : registry.Settled) {earlier later : List Definition}
    (order : registry.definitions = earlier ++ later)
    (silent : (deployEntries (registry.part earlier)
      (later.map Definition.entry)).1 = []) :
    ∀ before definition after, later = before ++ definition :: after →
      definition.resolve (registry.part (earlier ++ before)).environment =
        .ok definition := by
  induction later generalizing earlier with
  | nil => simp
  | cons definition later induction =>
      rw [List.map_cons, deployEntries] at silent
      split at silent
      · rename_i deployed grown again
        have resolves := settled.resolve_of_deploy wellFormed order again
        have same := deploy_again wellFormed order resolves
        obtain ⟨-, rfl⟩ := Prod.mk.inj (Except.ok.inj (again.symm.trans same))
        have orderNext : registry.definitions = (earlier ++ [definition]) ++ later := by
          simpa using order
        intro before other after split
        cases before with
        | nil =>
            obtain ⟨rfl, rfl⟩ := List.cons.inj split
            simpa using resolves
        | cons first before =>
            obtain ⟨rfl, rest⟩ := List.cons.inj split
            simpa using induction orderNext silent before other after rest
      · simp at silent

/-- The manifest of a settled registry deploys without failures exactly when
each tap by position follows its target, and then gives the registry again. -/
theorem deployInto_ofRegistry (wellFormed : registry.WellFormed)
    (settled : registry.Settled) :
    (((ofRegistry registry).deployInto (empty registry.limit)).1 = [] ↔
        registry.TapsFollow) ∧
      (registry.TapsFollow →
        (ofRegistry registry).deployInto (empty registry.limit) = ([], registry)) := by
  have order : registry.definitions = [] ++ registry.definitions := rfl
  have deployment : (ofRegistry registry).deployInto (empty registry.limit) =
      deployEntries (registry.part []) (registry.definitions.map Definition.entry) :=
    rfl
  have faithful : registry.TapsFollow →
      (ofRegistry registry).deployInto (empty registry.limit) = ([], registry) := by
    intro follow
    rw [deployment]
    exact deployEntries_of_chronological wellFormed
      ((settled.chronological_iff wellFormed).mpr follow) order
  refine ⟨⟨?_, fun follow => congrArg Prod.fst (faithful follow)⟩, faithful⟩
  intro silent
  rw [deployment] at silent
  apply (settled.chronological_iff wellFormed).mp
  intro earlier definition later split
  simpa only [List.nil_append] using chronological_of_deployEntries wellFormed settled
    order silent earlier definition later split

end Manifest

namespace Session

theorem settled_step {session : Session} (command : Command)
    (wellFormed : session.registry.WellFormed)
    (settled : session.report = [] → session.registry.Settled) :
    (session.step command).report = [] → (session.step command).registry.Settled := by
  cases command with
  | stage kind name text => exact settled
  | deploy kind name text =>
      rw [step]
      split
      · rename_i deployed
        exact fun silent => (settled silent).deploy wellFormed deployed
      · exact settled
  | redeploy kind name text =>
      rw [step]
      split
      · rename_i redeployed
        obtain ⟨-, definition, staged, resolved⟩ :=
          Registry.redeploy_eq_ok.mp redeployed
        obtain ⟨-, -, -, admissible⟩ := Registry.admissible_of_stage staged
        have again := Registry.settled_of_resolveAll (wellFormed.replace admissible)
        rwa [resolved] at again
      · exact settled
  | undeploy name =>
      rw [step]
      split
      · rename_i undeployed
        exact fun silent => (settled silent).undeploy wellFormed undeployed
      · exact settled
  | resolveAll => exact Registry.settled_of_resolveAll wellFormed
  | deployManifest manifest =>
      intro silent
      exact (Manifest.deployEntries_induction
        (fun holds deployed => And.intro (holds.1.deploy deployed)
          (holds.2.deploy holds.1 deployed))
        (And.intro wellFormed (settled silent)) manifest.entries).2

theorem settled_run (limit : Option Nat) {commands : List Command}
    (silent : ((start limit).run commands).report = []) :
    ((start limit).run commands).registry.Settled :=
  run_induction_of_wellFormed
    (fun session => session.report = [] → session.registry.Settled) (fun _ => True)
    (fun {_ command} _ => settled_step command)
    (fun _ => Registry.settled_empty limit) (fun _ _ => trivial) silent

/-- If the last report is empty, the manifest of the registry deploys without
failures into an empty one exactly when each tap by position follows its target,
and then it gives the registry again. -/
theorem deployInto_run (limit : Option Nat) (commands : List Command)
    (silent : ((start limit).run commands).report = []) :
    let registry := ((start limit).run commands).registry
    (((Manifest.ofRegistry registry).deployInto (.empty limit)).1 = [] ↔
        registry.TapsFollow) ∧
      (registry.TapsFollow →
        (Manifest.ofRegistry registry).deployInto (.empty limit) = ([], registry)) := by
  intro registry
  have replay := Manifest.deployInto_ofRegistry (wellFormed_run limit commands)
    (settled_run limit silent)
  rwa [limit_run limit commands] at replay

/-- A tap whose target is replaced, and so resolved to another label. -/
theorem deployInto_run_relabelled :
    let commands : List Command :=
      [.deploy .stream "main" "http | file", .deploy .stream "audit" "tap:main.1 > log",
        .redeploy .stream "main" "http | out: file", .undeploy "main"]
    let registry := ((start (some 40)).run commands).registry
    ((start (some 40)).run commands).report = [] ∧ registry.TapsFollow ∧
      (Manifest.ofRegistry registry).deployInto (.empty (some 40)) = ([], registry) := by
  intro commands registry
  have silent : ((start (some 40)).run commands).report = [] := by decide +kernel
  obtain ⟨follow, faithful⟩ := deployInto_run (some 40) commands silent
  have replayed : ((Manifest.ofRegistry registry).deployInto (.empty (some 40))).1 = [] := by
    decide +kernel
  exact ⟨silent, follow.mp replayed, faithful (follow.mp replayed)⟩

/-- A definition that is replaced by a tap into a later one comes before its
target, so that the manifest does not deploy although all is resolved. -/
theorem deployInto_run_tapsLater :
    let session := (start none).run
      [.deploy .stream "a" "http | file", .deploy .stream "b" "http | file",
        .redeploy .stream "a" "tap:b > log"]
    let replayed := (Manifest.ofRegistry session.registry).deployInto (.empty none)
    session.report = [] ∧ session.registry.names = ["a", "b"] ∧
      replayed.1 = [.resolution "a" ⟨.unknownStream "b", ⟨0, 5⟩⟩] ∧
        replayed.2.names = ["b"] := by
  decide +kernel

end Session

end Tapline
