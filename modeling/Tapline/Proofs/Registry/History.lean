import Tapline.Proofs.Registry.Session

/-!
# The history of a registry

A registry answers every operation, and a failure is one of the answers.  An
operation that fails leaves the registry as it was, and so does one that only
looks.  A deployment adds its definition behind all others, a redeployment puts
one in the place of another, and an undeployment takes one out.  None of them
moves the others.

So the order of the names is that of the deployments.  A name is in use if it was
deployed and has not been undeployed since.
-/

namespace Tapline

/-- What can be asked of a registry: a command, or a look at what is there. -/
inductive Operation where
  | command (command : Command)
  | get (name : String)
  | dependents (name : String)
  | lookup (kind : Kind) (name : String)
  | manifest

inductive Answer where
  | failure (failure : Failure)
  | definition (definition : Definition)
  | report (failures : List Failure)
  | found (definition : Option Definition)
  | names (names : List String)
  | tree (tree : Option Pipeline)
  | manifest (manifest : Manifest)

def Answer.ofOutcome (answer : α → Answer) : Except Failure α → Answer
  | .ok result => answer result
  | .error reason => .failure reason

/-- Only an operation that succeeded answers anything but a failure. -/
theorem Answer.ofOutcome_eq {answer : α → Answer} {outcome : Except Failure α}
    {expected : Answer} (proper : ∀ reason, expected ≠ .failure reason)
    (answered : ofOutcome answer outcome = expected) :
    ∃ result, outcome = .ok result ∧ answer result = expected := by
  cases outcome with
  | ok result => exact ⟨result, rfl, answered⟩
  | error reason => exact (proper reason answered.symm).elim

/-- Whether the operation only looks at what is there. -/
def Operation.looks : Operation → Bool
  | .command (.stage _ _ _) => true
  | .command _ => false
  | _ => true

namespace Session

def answer (session : Session) : Operation → Answer
  | .command (.stage kind name text) =>
      .ofOutcome .definition (session.registry.stage kind name text)
  | .command (.deploy kind name text) =>
      .ofOutcome (.definition ·.1) (session.registry.deploy kind name text)
  | .command (.redeploy kind name text) =>
      .ofOutcome (.report ·.1) (session.registry.redeploy kind name text)
  | .command (.undeploy name) =>
      .ofOutcome (.definition ·.1) (session.registry.undeploy name)
  | .command .resolveAll => .report session.registry.resolveAll.1
  | .command (.deployManifest manifest) =>
      .report (manifest.deployInto session.registry).1
  | .get name => .found (session.registry.find? name)
  | .dependents name => .names (session.registry.dependents name)
  | .lookup kind name => .tree (session.registry.environment.find? kind name)
  | .manifest => .manifest (.ofRegistry session.registry)

/-- The session after an operation. -/
def perform (session : Session) : Operation → Session
  | .command command => session.step command
  | _ => session

end Session

namespace Registry

variable {registry : Registry}

/-- A definition splits the order into the earlier and the later ones, none of
which has its name. -/
theorem exists_order (wellFormed : registry.WellFormed) {definition : Definition}
    (member : definition ∈ registry.definitions) :
    ∃ earlier later, registry.definitions = earlier ++ definition :: later ∧
      (∀ other ∈ earlier, other.name ≠ definition.name) ∧
        ∀ other ∈ later, other.name ≠ definition.name := by
  obtain ⟨earlier, later, order⟩ := List.append_of_mem member
  have distinct := wellFormed.names_nodup
  rw [names, order] at distinct
  obtain ⟨absentEarlier, absentLater⟩ := Definition.name_not_mem distinct
  refine ⟨earlier, later, order, ?_, ?_⟩
  · intro other inside same
    exact absentEarlier (same ▸ List.mem_map_of_mem inside)
  · intro other inside same
    exact absentLater (same ▸ List.mem_map_of_mem inside)

theorem names_undeploy {name : String} {definition : Definition} {smaller : Registry}
    (undeployed : registry.undeploy name = .ok (definition, smaller)) :
    smaller.names = registry.names.filter (· ≠ name) := by
  obtain ⟨-, -, rfl⟩ := undeploy_eq_ok.mp undeployed
  simp [names, List.filter_map, Function.comp_def]

theorem names_redeploy {kind : Kind} {name text : String} {report : List Failure}
    {after : Registry}
    (redeployed : registry.redeploy kind name text = .ok (report, after)) :
    after.names = registry.names := by
  obtain ⟨-, definition, -, resolved⟩ := redeploy_eq_ok.mp redeployed
  obtain rfl : (registry.replace definition).resolveAll.2 = after :=
    congrArg Prod.snd resolved
  rw [names_resolveAll, names_replace]

theorem order_undeploy (wellFormed : registry.WellFormed) {name : String}
    {definition : Definition} {smaller : Registry}
    (undeployed : registry.undeploy name = .ok (definition, smaller)) :
    ∃ earlier later, registry.definitions = earlier ++ definition :: later ∧
      definition.name = name ∧ smaller.definitions = earlier ++ later := by
  obtain ⟨found, -, rfl⟩ := undeploy_eq_ok.mp undeployed
  obtain ⟨member, rfl⟩ := (find?_eq_some wellFormed.names_nodup).mp found
  obtain ⟨earlier, later, order, apartEarlier, apartLater⟩ :=
    exists_order wellFormed member
  refine ⟨earlier, later, order, rfl, ?_⟩
  have keptEarlier : earlier.filter (·.name ≠ definition.name) = earlier := by
    rw [List.filter_eq_self]
    intro other inside
    simpa using apartEarlier other inside
  have keptLater : later.filter (·.name ≠ definition.name) = later := by
    rw [List.filter_eq_self]
    intro other inside
    simpa using apartLater other inside
  simp only [order, List.filter_append, keptEarlier]
  rw [List.filter_cons_of_neg (by simp), keptLater]

/-- Resolving a new definition again where it has taken its place leaves it as it
was staged: it taps no definition of its own name and kind, and all others answer
it as before. -/
theorem refresh_replace (wellFormed : registry.WellFormed) {kind : Kind}
    {name text : String} {definition : Definition}
    (staged : registry.stage kind name text = .ok definition) :
    definition.refresh (registry.replace definition).environment = definition := by
  obtain ⟨-, -, -, admissible⟩ := admissible_of_stage staged
  obtain ⟨-, -, -, resolves⟩ := stage_eq_ok.mp staged
  cases again : definition.resolve (registry.replace definition).environment with
  | error failure => exact Definition.refresh_of_error again
  | ok resolved =>
      rw [Definition.refresh_of_ok again]
      have before : definition.resolve registry.environment = .ok resolved := by
        apply admissible.resolve_of_answer _ again
        intro request label asked answer
        obtain ⟨target, inside, targetName, targetKind, labelled⟩ :=
          (answer?_eq_some (wellFormed.replace admissible).names_nodup).mp answer
        apply (answer?_eq_some wellFormed.names_nodup).mpr
        obtain ⟨old, member, same⟩ := List.mem_map.mp inside
        split at same
        · subst same
          apply (admissible.no_self_tap _).elim
          rw [Definition.tapTarget?_of_request? asked, targetName, targetKind]
        · subst same
          exact ⟨old, member, targetName, targetKind, labelled⟩
      exact Except.ok.inj (before.symm.trans resolves)

/-- A redeployment puts the staged definition in the place of the old one, and
changes at most the resolved trees of the others. -/
theorem order_redeploy (wellFormed : registry.WellFormed) {kind : Kind}
    {name text : String} {report : List Failure} {after : Registry}
    (redeployed : registry.redeploy kind name text = .ok (report, after)) :
    ∃ earlier old later staged earlierAfter laterAfter,
      registry.definitions = earlier ++ old :: later ∧ old.name = name ∧
        registry.stage kind name text = .ok staged ∧
          after.definitions = earlierAfter ++ staged :: laterAfter ∧
            earlierAfter.map Definition.unresolved =
                earlier.map Definition.unresolved ∧
              laterAfter.map Definition.unresolved =
                later.map Definition.unresolved := by
  obtain ⟨present, staged, isStaged, resolved⟩ := redeploy_eq_ok.mp redeployed
  obtain rfl : (registry.replace staged).resolveAll.2 = after :=
    congrArg Prod.snd resolved
  obtain ⟨stagedName, -, -, -⟩ := admissible_of_stage isStaged
  obtain ⟨old, member, oldName⟩ := List.mem_map.mp present
  obtain ⟨earlier, later, order⟩ := List.append_of_mem member
  let environment := (registry.replace staged).environment
  refine ⟨earlier, old, later, staged, earlier.map (·.refresh environment),
    later.map (·.refresh environment), order, oldName, isStaged, ?_,
    Definition.map_unresolved_refresh environment earlier,
    Definition.map_unresolved_refresh environment later⟩
  have replaced := definitions_replace wellFormed.names_nodup order
    (stagedName.trans oldName.symm)
  rw [resolveAll_definitions, replaced, List.map_append, List.map_cons,
    refresh_replace wellFormed isStaged]

end Registry

def ManifestEntry.command (entry : ManifestEntry) : Command :=
  .deploy entry.kind entry.name entry.text

/-- A manifest is deployed as its entries are, one after the other. -/
def Command.parts : Command → List Command
  | .deployManifest manifest => manifest.entries.map ManifestEntry.command
  | command => [command]

namespace Session

theorem step_deployManifest (session : Session) (manifest : Manifest) :
    session.step (.deployManifest manifest) =
      session.run (manifest.entries.map ManifestEntry.command) := by
  obtain ⟨version, entries⟩ := manifest
  simp only [step, Manifest.deployInto]
  induction entries generalizing session with
  | nil => rfl
  | cons entry entries induction =>
      rw [List.map_cons, run, List.foldl_cons, ← run, ← induction, Manifest.deployEntries,
        ManifestEntry.command, step]
      cases session.registry.deploy entry.kind entry.name entry.text <;> rfl

private theorem run_append (session : Session) (commands more : List Command) :
    session.run (commands ++ more) = (session.run commands).run more :=
  List.foldl_append

theorem run_parts (session : Session) (commands : List Command) :
    session.run (commands.flatMap Command.parts) = session.run commands := by
  induction commands generalizing session with
  | nil => rfl
  | cons command commands induction =>
      have first : session.run command.parts = session.step command := by
        cases command with
        | deployManifest manifest => exact (step_deployManifest session manifest).symm
        | _ => rfl
      rw [List.flatMap_cons, run_append, first, induction]
      rfl

theorem perform_of_failure {session : Session} {operation : Operation}
    {failure : Failure} (failed : session.answer operation = .failure failure) :
    session.perform operation = session := by
  cases operation with
  | command command =>
      cases command with
      | stage kind name text => rfl
      | deploy kind name text =>
          cases outcome : session.registry.deploy kind name text with
          | ok result => simp [answer, outcome, Answer.ofOutcome] at failed
          | error reason => rw [perform, step, outcome]
      | redeploy kind name text =>
          cases outcome : session.registry.redeploy kind name text with
          | ok result => simp [answer, outcome, Answer.ofOutcome] at failed
          | error reason => rw [perform, step, outcome]
      | undeploy name =>
          cases outcome : session.registry.undeploy name with
          | ok result => simp [answer, outcome, Answer.ofOutcome] at failed
          | error reason => rw [perform, step, outcome]
      | resolveAll => cases failed
      | deployManifest manifest => cases failed
  | _ => rfl

end Session

/-- What happened to a name. -/
inductive Event where
  | deployed (name : String)
  | undeployed (name : String)
deriving DecidableEq

namespace Event

/-- The names that were deployed and not undeployed since, in the order of their
deployment. -/
def standing : List Event → List String
  | [] => []
  | .deployed name :: later =>
      if .undeployed name ∈ later then standing later else name :: standing later
  | .undeployed _ :: later => standing later

private theorem standing_append_deployed (events : List Event) (name : String) :
    standing (events ++ [.deployed name]) = standing events ++ [name] := by
  induction events with
  | nil => simp [standing]
  | cons event events induction =>
      cases event with
      | undeployed other => exact induction
      | deployed other =>
          simp only [List.cons_append, standing, List.mem_append, List.mem_singleton,
            reduceCtorEq, or_false, induction]
          by_cases gone : .undeployed other ∈ events
          · simp [gone]
          · simp [gone]

private theorem standing_append_undeployed (events : List Event) (name : String) :
    standing (events ++ [.undeployed name]) =
      (standing events).filter (· ≠ name) := by
  induction events with
  | nil => simp [standing]
  | cons event events induction =>
      cases event with
      | undeployed other => exact induction
      | deployed other =>
          simp only [List.cons_append, standing, List.mem_append, List.mem_singleton,
            Event.undeployed.injEq, induction]
          by_cases gone : .undeployed other ∈ events
          · simp [gone]
          · by_cases same : other = name
            · subst same
              simp [gone]
            · simp [gone, same]

example : standing [.deployed "a", .deployed "b", .undeployed "a", .deployed "a"] =
    ["b", "a"] := by
  decide

end Event

namespace Session

/-- What a command that succeeds does to a name. -/
def event? (session : Session) (command : Command) : Option Event :=
  match command, session.answer (.command command) with
  | .deploy _ name _, .definition _ => some (.deployed name)
  | .undeploy name, .definition _ => some (.undeployed name)
  | _, _ => none

/-- What happens to names as the commands are carried out. -/
def history (session : Session) : List Command → List Event
  | [] => []
  | command :: commands =>
      (session.event? command).toList ++ (session.step command).history commands

theorem names_step {session : Session} {command : Command}
    (single : ∀ manifest, command ≠ .deployManifest manifest) {past : List Event}
    (names : session.registry.names = Event.standing past) :
    (session.step command).registry.names =
      Event.standing (past ++ (session.event? command).toList) := by
  cases command with
  | stage kind name text => simpa [step, event?] using names
  | deploy kind name text =>
      cases outcome : session.registry.deploy kind name text with
      | error failure => simpa [step, event?, answer, outcome, Answer.ofOutcome] using names
      | ok result =>
          simp only [step, event?, answer, outcome, Answer.ofOutcome, Option.toList_some,
            Event.standing_append_deployed, Registry.names_deploy outcome, names]
  | redeploy kind name text =>
      cases outcome : session.registry.redeploy kind name text with
      | error failure => simpa [step, event?, outcome] using names
      | ok result =>
          simpa [step, event?, outcome, Registry.names_redeploy outcome] using names
  | undeploy name =>
      cases outcome : session.registry.undeploy name with
      | error failure => simpa [step, event?, answer, outcome, Answer.ofOutcome] using names
      | ok result =>
          simp only [step, event?, answer, outcome, Answer.ofOutcome, Option.toList_some,
            Event.standing_append_undeployed, Registry.names_undeploy outcome, names]
  | resolveAll => simpa [step, event?, Registry.names_resolveAll] using names
  | deployManifest manifest => exact (single manifest rfl).elim

theorem names_run {session : Session} {commands : List Command}
    (single : ∀ command ∈ commands, ∀ manifest, command ≠ .deployManifest manifest)
    {past : List Event} (names : session.registry.names = Event.standing past) :
    (session.run commands).registry.names =
      Event.standing (past ++ session.history commands) := by
  induction commands generalizing session past with
  | nil => simpa [history, run] using names
  | cons command commands induction =>
      rw [List.forall_mem_cons] at single
      rw [history, ← List.append_assoc]
      exact induction single.2 (names_step single.1 names)

private theorem single_of_mem_parts {command : Command} {commands : List Command}
    (member : command ∈ commands.flatMap Command.parts) :
    ∀ manifest, command ≠ .deployManifest manifest := by
  obtain ⟨whole, -, part⟩ := List.mem_flatMap.mp member
  intro manifest same
  subst same
  cases whole with
  | deployManifest other =>
      obtain ⟨entry, -, same⟩ := List.mem_map.mp part
      cases same
  | _ => cases List.mem_singleton.mp part

/-- What operations leave as it was, and what they change. -/
structure Conservative (session : Session) : Prop where
  of_failure : ∀ operation failure, session.answer operation = .failure failure →
    session.perform operation = session
  of_looks : ∀ operation, operation.looks = true → session.perform operation = session
  deploy : ∀ kind name text definition,
    session.answer (.command (.deploy kind name text)) = .definition definition →
      name ∉ session.registry.names ∧ definition.name = name ∧
        session.answer (.command (.stage kind name text)) = .definition definition ∧
          (session.step (.deploy kind name text)).registry.definitions =
            session.registry.definitions ++ [definition]
  /-- The staged definition is in the place of the old one.  Of the others, at most
  the resolved trees differ. -/
  redeploy : ∀ kind name text report,
    session.answer (.command (.redeploy kind name text)) = .report report →
      ∃ earlier old later staged earlierAfter laterAfter,
        session.registry.definitions = earlier ++ old :: later ∧ old.name = name ∧
          session.answer (.command (.stage kind name text)) = .definition staged ∧
            (session.step (.redeploy kind name text)).registry.definitions =
              earlierAfter ++ staged :: laterAfter ∧
              earlierAfter.map Definition.unresolved =
                  earlier.map Definition.unresolved ∧
                laterAfter.map Definition.unresolved =
                  later.map Definition.unresolved
  undeploy : ∀ name definition,
    session.answer (.command (.undeploy name)) = .definition definition →
      ∃ earlier later,
        session.registry.definitions = earlier ++ definition :: later ∧
          definition.name = name ∧
            (session.step (.undeploy name)).registry.definitions = earlier ++ later
  resolveAll :
    (session.step .resolveAll).registry.definitions.map Definition.unresolved =
      session.registry.definitions.map Definition.unresolved
  deployManifest : ∀ manifest, session.step (.deployManifest manifest) =
    session.run (manifest.entries.map ManifestEntry.command)

theorem conservative {session : Session} (wellFormed : session.registry.WellFormed) :
    session.Conservative := by
  constructor
  · intro operation failure
    exact perform_of_failure
  · intro operation looks
    cases operation with
    | command command =>
        cases command with
        | stage kind name text => rfl
        | _ => cases looks
    | _ => rfl
  · intro kind name text definition answered
    obtain ⟨⟨_, grown⟩, deployed, same⟩ := Answer.ofOutcome_eq (by simp) answered
    cases same
    obtain ⟨fresh, staged, rfl⟩ := Registry.deploy_eq_ok.mp deployed
    obtain ⟨named, -, -, -⟩ := Registry.admissible_of_stage staged
    refine ⟨fresh, named, ?_, ?_⟩
    · rw [answer, staged, Answer.ofOutcome]
    · rw [step, deployed]
  · intro kind name text report answered
    obtain ⟨⟨_, after⟩, redeployed, same⟩ := Answer.ofOutcome_eq (by simp) answered
    obtain ⟨earlier, old, later, staged, earlierAfter, laterAfter, order, named,
      isStaged, orderAfter, sameEarlier, sameLater⟩ :=
      Registry.order_redeploy wellFormed redeployed
    refine ⟨earlier, old, later, staged, earlierAfter, laterAfter, order, named, ?_,
      ?_, sameEarlier, sameLater⟩
    · rw [answer, isStaged, Answer.ofOutcome]
    · rw [step, redeployed, orderAfter]
  · intro name definition answered
    obtain ⟨⟨_, smaller⟩, undeployed, same⟩ := Answer.ofOutcome_eq (by simp) answered
    cases same
    obtain ⟨earlier, later, order, named, orderAfter⟩ :=
      Registry.order_undeploy wellFormed undeployed
    refine ⟨earlier, later, order, named, ?_⟩
    rw [step, undeployed, orderAfter]
  · rw [step, Registry.resolveAll_definitions]
    exact Definition.map_unresolved_refresh _ _
  · exact step_deployManifest session

/-- In every session, an operation that fails or only looks changes nothing, and
any other changes what it is about and moves nothing else.  So the names are those
that were deployed and not undeployed since, in the order of their deployment. -/
theorem conservative_run (limit : Option Nat) (commands : List Command) :
    ((start limit).run commands).Conservative ∧
      ((start limit).run commands).registry.names =
        Event.standing ((start limit).history (commands.flatMap Command.parts)) := by
  constructor
  · exact conservative (wellFormed_run limit commands)
  · have atStart : (start limit).registry.names = Event.standing [] := rfl
    rw [← run_parts]
    exact names_run (fun _ => single_of_mem_parts) atStart

/-- A name that is deployed again comes last.  In the registry of two definitions that
there is then, one is added, one is taken out, one is replaced and one is in use. -/
theorem conservative_run_audit :
    let commands : List Command :=
      [.deploy .stream "audit" "jms | log", .deploy .stream "main" "http | file",
        .undeploy "audit", .deploy .stream "audit" "tap:main.1 > log"]
    let session := (start none).run commands
    session.registry.names = ["main", "audit"] ∧
      (∃ side, session.answer (.command (.deploy .job "side" "batch")) =
          .definition side ∧
        (session.step (.deploy .job "side" "batch")).registry.definitions =
          session.registry.definitions ++ [side]) ∧
      (∃ audit, session.answer (.command (.undeploy "audit")) = .definition audit ∧
        ∃ earlier later, session.registry.definitions = earlier ++ audit :: later ∧
          (session.step (.undeploy "audit")).registry.definitions = earlier ++ later) ∧
      (∃ staged, session.answer (.command (.stage .stream "main" "jms | file")) =
          .definition staged ∧
        staged ∈ (session.step (.redeploy .stream "main" "jms | file")).registry.definitions) ∧
      session.perform (.command (.undeploy "main")) = session := by
  intro commands session
  obtain ⟨conservative, names⟩ := conservative_run none commands
  have deploys : (session.registry.deploy .job "side" "batch").toOption.isSome = true := by
    decide +kernel
  have undeploys : (session.registry.undeploy "audit").toOption.isSome = true := by
    decide +kernel
  have redeploys :
      (session.registry.redeploy .stream "main" "jms | file").toOption.isSome = true := by
    decide +kernel
  have refusal : failure? (session.registry.undeploy "main") =
      some (.inUse "main" ["audit"]) := by
    decide +kernel
  obtain ⟨⟨side, grown⟩, deployed⟩ := Option.isSome_iff_exists.mp deploys
  obtain ⟨⟨audit, smaller⟩, undeployed⟩ := Option.isSome_iff_exists.mp undeploys
  obtain ⟨⟨report, after⟩, redeployed⟩ := Option.isSome_iff_exists.mp redeploys
  have added : session.answer (.command (.deploy .job "side" "batch")) =
      .definition side := by
    rw [answer, eq_ok_of_toOption deployed, Answer.ofOutcome]
  have removed : session.answer (.command (.undeploy "audit")) = .definition audit := by
    rw [answer, eq_ok_of_toOption undeployed, Answer.ofOutcome]
  have replaced : session.answer (.command (.redeploy .stream "main" "jms | file")) =
      .report report := by
    rw [answer, eq_ok_of_toOption redeployed, Answer.ofOutcome]
  have refused : session.answer (.command (.undeploy "main")) =
      .failure (.inUse "main" ["audit"]) := by
    rw [answer, eq_error_of_failure? refusal, Answer.ofOutcome]
  refine ⟨names.trans (by decide +kernel), ⟨side, added, ?_⟩, ⟨audit, removed, ?_⟩, ?_,
    conservative.of_failure _ _ refused⟩
  · exact (conservative.deploy _ _ _ _ added).2.2.2
  · obtain ⟨earlier, later, order, -, left⟩ := conservative.undeploy _ _ removed
    exact ⟨earlier, later, order, left⟩
  · obtain ⟨-, -, -, staged, earlier, later, -, -, isStaged, order, -, -⟩ :=
      conservative.redeploy _ _ _ _ replaced
    refine ⟨staged, isStaged, ?_⟩
    rw [order]
    exact List.mem_append_right earlier List.mem_cons_self

end Session

end Tapline
