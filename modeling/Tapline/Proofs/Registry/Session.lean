import Tapline.Proofs.Registry.WellFormed

/-!
# Sessions

A session is a registry on which commands are carried out one after another.  It
remembers what the last resolution of all definitions reported.  Properties of
the registries that sessions reach are shown command by command, and whatever
the commands, these registries are well formed.
-/

namespace Tapline

/-- What can be done to a registry. -/
inductive Command where
  | stage (kind : Kind) (name text : String)
  | deploy (kind : Kind) (name text : String)
  | redeploy (kind : Kind) (name text : String)
  | undeploy (name : String)
  | resolveAll
  | deployManifest (manifest : Manifest)
deriving DecidableEq

/-- A registry with the last report on the resolution of all definitions. -/
structure Session where
  registry : Registry
  report : List Failure
deriving DecidableEq

namespace Session

def start (limit : Option Nat) : Session := ⟨.empty limit, []⟩

/-- The session after a command.  Staging changes nothing, and neither does an
operation that fails. -/
def step (session : Session) : Command → Session
  | .stage _ _ _ => session
  | .deploy kind name text =>
      match session.registry.deploy kind name text with
      | .ok (_, registry) => { session with registry }
      | .error _ => session
  | .redeploy kind name text =>
      match session.registry.redeploy kind name text with
      | .ok (report, registry) => ⟨registry, report⟩
      | .error _ => session
  | .undeploy name =>
      match session.registry.undeploy name with
      | .ok (_, registry) => { session with registry }
      | .error _ => session
  | .resolveAll => ⟨session.registry.resolveAll.2, session.registry.resolveAll.1⟩
  | .deployManifest manifest =>
      { session with registry := (manifest.deployInto session.registry).2 }

def run (session : Session) (commands : List Command) : Session :=
  commands.foldl step session

/-- What every allowed command keeps is kept by a run of allowed commands. -/
theorem run_induction (property : Session → Prop) (allowed : Command → Prop)
    (step : ∀ {session command}, allowed command → property session →
      property (session.step command))
    {session : Session} (start : property session) {commands : List Command}
    (permitted : ∀ command ∈ commands, allowed command) :
    property (session.run commands) := by
  induction commands generalizing session with
  | nil => exact start
  | cons command commands induction =>
      rw [List.forall_mem_cons] at permitted
      exact induction (step permitted.1 start) permitted.2

/-- What the operations keep is kept by a command. -/
theorem registry_step (property : Registry → Prop) {session : Session}
    {command : Command} (holds : property session.registry)
    (deploy : ∀ {registry grown : Registry} {kind name text definition},
      property registry → registry.deploy kind name text = .ok (definition, grown) →
        property grown)
    (redeploy : ∀ {kind name text report after},
      command = .redeploy kind name text →
        session.registry.redeploy kind name text = .ok (report, after) →
          property after)
    (undeploy : ∀ {name definition smaller},
      session.registry.undeploy name = .ok (definition, smaller) → property smaller)
    (resolveAll : property session.registry.resolveAll.2) :
    property (session.step command).registry := by
  cases command with
  | stage kind name text => exact holds
  | deploy kind name text =>
      rw [step]
      split
      · rename_i deployed
        exact deploy holds deployed
      · exact holds
  | redeploy kind name text =>
      rw [step]
      split
      · rename_i redeployed
        exact redeploy rfl redeployed
      · exact holds
  | undeploy name =>
      rw [step]
      split
      · rename_i undeployed
        exact undeploy undeployed
      · exact holds
  | resolveAll => exact resolveAll
  | deployManifest manifest => exact Manifest.deployEntries_induction deploy holds _

theorem wellFormed_step {session : Session} (command : Command)
    (wellFormed : session.registry.WellFormed) :
    (session.step command).registry.WellFormed :=
  registry_step Registry.WellFormed wellFormed
    (fun holds deployed => holds.deploy deployed)
    (fun _ redeployed => wellFormed.redeploy redeployed)
    (fun undeployed => wellFormed.undeploy undeployed) wellFormed.resolveAll

/-- Sessions reach well-formed registries only. -/
theorem wellFormed_run (limit : Option Nat) (commands : List Command) :
    ((start limit).run commands).registry.WellFormed :=
  run_induction (·.registry.WellFormed) (fun _ => True)
    (fun {_ command} _ => wellFormed_step command) (Registry.wellFormed_empty limit)
    fun _ _ => trivial

theorem run_induction_of_wellFormed (property : Session → Prop)
    (allowed : Command → Prop)
    (step : ∀ {session command}, allowed command → session.registry.WellFormed →
      property session → property (session.step command))
    {limit : Option Nat} (atStart : property (start limit))
    {commands : List Command} (permitted : ∀ command ∈ commands, allowed command) :
    property ((start limit).run commands) := by
  have both : ((start limit).run commands).registry.WellFormed ∧
      property ((start limit).run commands) := by
    apply run_induction (fun session => session.registry.WellFormed ∧ property session)
      allowed
    · exact fun {_ command} isAllowed holds =>
        ⟨wellFormed_step command holds.1, step isAllowed holds.1 holds.2⟩
    · exact ⟨Registry.wellFormed_empty limit, atStart⟩
    · exact permitted
  exact both.2

theorem limit_step (session : Session) (command : Command) :
    (session.step command).registry.limit = session.registry.limit := by
  refine registry_step (·.limit = session.registry.limit) rfl ?_ ?_ ?_ rfl
  · intro registry grown kind name text definition same deployed
    obtain ⟨-, -, rfl⟩ := Registry.deploy_eq_ok.mp deployed
    exact same
  · intro kind name text report after _ redeployed
    obtain ⟨-, definition, -, resolved⟩ := Registry.redeploy_eq_ok.mp redeployed
    obtain rfl : (session.registry.replace definition).resolveAll.2 = after :=
      congrArg Prod.snd resolved
    rfl
  · intro name definition smaller undeployed
    obtain ⟨-, -, rfl⟩ := Registry.undeploy_eq_ok.mp undeployed
    rfl

theorem limit_run (limit : Option Nat) (commands : List Command) :
    ((start limit).run commands).registry.limit = limit :=
  run_induction (·.registry.limit = limit) (fun _ => True)
    (fun {session command} _ same => (limit_step session command).trans same) rfl
    fun _ _ => trivial

end Session

end Tapline
