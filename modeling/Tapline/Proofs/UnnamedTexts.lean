import Tapline.CommandLine
import Tapline.Proofs.Registry.Removal
import Tapline.Proofs.SavedFiles

/-!
# Texts without a name

A text is staged under a name.  Where neither the command line nor the text gives
one, the command that resolves a text takes a name of its own.  That name is as good
as any other, and a definition may be deployed under it.  So the stand-in makes one
difference to resolving the tree that was read: a text that taps the stream of this
name is refused as if it tapped itself.
-/

namespace Tapline

namespace Registry

/-- Under whatever name a text without one is staged, it is resolved, unless it taps
that name. -/
theorem stage_of_unnamed {registry : Registry} {kind : Kind} {text : String}
    {parsed : Pipeline} (fits : registry.excess? text = none)
    (read : Pipeline.parse kind text = .ok parsed) (unnamed : parsed.name = none)
    (name : String) :
    let definition : Definition := ⟨name, kind, text, parsed, none⟩
    (definition.Taps kind name →
      registry.stage kind name text = .error (.selfTap name)) ∧
    (¬definition.Taps kind name →
      registry.stage kind name text = definition.resolve registry.environment) := by
  intro definition
  have accepted : Definition.parse kind name text = .ok definition :=
    Definition.parse_eq_ok.mpr ⟨parsed, read, by simp [unnamed], rfl⟩
  have stage : registry.stage kind name text =
      if definition.tapTarget? = some (kind, name) then .error (.selfTap name)
      else definition.resolve registry.environment := by
    unfold Registry.stage
    rw [fits, accepted]
    rfl
  constructor
  · intro taps
    rw [stage, if_pos (Definition.tapTarget?_eq_some.mpr taps)]
  · intro tapsOthers
    rw [stage, if_neg (mt Definition.tapTarget?_eq_some.mp tapsOthers)]

end Registry

namespace CommandLine

/-- The name that a text is staged under when nothing names it. -/
def standIn : String := "definition"

private theorem nameIn_of_unnamed {text : String} {parsed : Pipeline}
    (read : Pipeline.parse .stream text = .ok parsed) (unnamed : parsed.name = none) :
    nameIn text = standIn := by
  rw [nameIn, read]
  simp only [unnamed, Option.getD_none]
  rfl

/-- Shows the resolved tree of a text, or the document of the definition it belongs to. -/
def showResolution (text : String) (parsed resolved : Pipeline) (layout : Layout)
    (json : Bool) : Outcome :=
  if json then
    .document .fine
      (Definition.toJson ⟨standIn, .stream, text, parsed, some resolved⟩)
  else
    .lines .fine [resolved.render layout]

/-- Shows why a text was refused. -/
def showFailure (failure : Failure) (text : String) (json : Bool) : Outcome :=
  if json then .rejection failure.toJson
  else .complaint (failureText failure text)

@[simp] theorem status_showResolution (text : String) (parsed resolved : Pipeline)
    (layout : Layout) (json : Bool) :
    (showResolution text parsed resolved layout json).status = .fine := by
  cases json <;> rfl

@[simp] theorem status_showFailure (failure : Failure) (text : String) (json : Bool) :
    (showFailure failure text json).status = .invalid := by
  cases json <;> rfl

section Staged

variable {registry : Registry} {text : String} {parsed : Pipeline}

private theorem showResolved_of_selfTap (fits : registry.excess? text = none)
    (read : Pipeline.parse .stream text = .ok parsed) (unnamed : parsed.name = none)
    (taps : Definition.Taps ⟨standIn, .stream, text, parsed, none⟩ .stream standIn)
    (layout : Layout) (json : Bool) :
    showResolved registry text none .stream layout json =
      showFailure (.selfTap standIn) text json := by
  have refused := (Registry.stage_of_unnamed fits read unnamed standIn).1 taps
  rw [showResolved, Option.getD_none, nameIn_of_unnamed read unnamed, refused]
  rfl

/-- Whoever does not tap the stand-in is staged as resolving says. -/
theorem showResolved_of_unnamed (fits : registry.excess? text = none)
    (read : Pipeline.parse .stream text = .ok parsed) (unnamed : parsed.name = none)
    (tapsOthers :
      ¬Definition.Taps ⟨standIn, .stream, text, parsed, none⟩ .stream standIn)
    (layout : Layout) (json : Bool) :
    showResolved registry text none .stream layout json =
      match parsed.resolve registry.environment with
      | .ok resolved => showResolution text parsed resolved layout json
      | .error diagnostic => showFailure (.resolution standIn diagnostic) text json := by
  have staged := (Registry.stage_of_unnamed fits read unnamed standIn).2 tapsOthers
  rw [showResolved, Option.getD_none, nameIn_of_unnamed read unnamed, staged,
    Definition.resolve]
  cases parsed.resolve registry.environment <;> rfl

end Staged

/-- The registry that the manifest at a path leads to.  Without a path it is empty. -/
inductive Loads (settings : Settings) (tree : FileTree) : Option String → Registry → Prop
  | nothing : Loads settings tree none settings.registry
  | manifest {path : String} {found : Manifest} :
      Manifest.load tree path = .ok found →
      Loads settings tree (some path) (found.deployInto settings.registry).2

theorem Loads.exists_outcome {settings : Settings} {tree : FileTree}
    {path : Option String} {registry : Registry}
    (loads : Loads settings tree path registry)
    (next : Registry → List Failure → Outcome) :
    ∃ failures, (withManifest settings path next).outcome tree =
      next registry failures := by
  cases loads with
  | nothing => exact ⟨[], rfl⟩
  | @manifest path found loaded =>
      rw [Manifest.load] at loaded
      refine ⟨(found.deployInto settings.registry).1, ?_⟩
      simp only [withManifest, Script.outcome, loaded]

/-- A text that names nothing and is given no name is shown as its tree resolves among
the definitions of the manifest, or refused because its tree does not resolve.  The
one exception is a text that taps the stream called like the stand-in. -/
theorem resolve_unnamed (settings : Settings) (tree : FileTree)
    (manifest : Option String) (registry : Registry)
    (loads : Loads settings tree (manifest <|> settings.defaultManifest) registry)
    (text : String) (parsed : Pipeline)
    (read : Pipeline.parse .stream text = .ok parsed) (unnamed : parsed.name = none)
    (fits : registry.excess? text = none) (layout : Layout) (json : Bool) :
    let definition : Definition := ⟨standIn, .stream, text, parsed, none⟩
    let command := Command.resolve text manifest none .stream layout
    let outcome := (command.script settings json).outcome tree
    (definition.Taps .stream standIn →
      outcome = showFailure (.selfTap standIn) text json) ∧
    (¬definition.Taps .stream standIn →
      (∀ resolved, parsed.resolve registry.environment = .ok resolved →
        outcome = showResolution text parsed resolved layout json) ∧
      ∀ diagnostic, parsed.resolve registry.environment = .error diagnostic →
        outcome = showFailure (.resolution standIn diagnostic) text json) ∧
    (outcome.status = .fine ↔
      (∃ resolved, parsed.resolve registry.environment = .ok resolved) ∧
        ¬definition.Taps .stream standIn) := by
  intro definition command outcome
  obtain ⟨failures, run⟩ := loads.exists_outcome
    fun registry _ => showResolved registry text none .stream layout json
  have shown : outcome = showResolved registry text none .stream layout json := run
  have refused (taps : definition.Taps .stream standIn) :
      outcome = showFailure (.selfTap standIn) text json :=
    shown.trans (showResolved_of_selfTap fits read unnamed taps layout json)
  have answered (tapsOthers : ¬definition.Taps .stream standIn) :=
    shown.trans (showResolved_of_unnamed fits read unnamed tapsOthers layout json)
  refine ⟨refused, ?_, ?_⟩
  · intro tapsOthers
    constructor
    · intro resolved succeeds
      rw [answered tapsOthers, succeeds]
    · intro diagnostic wrong
      rw [answered tapsOthers, wrong]
  · by_cases taps : definition.Taps .stream standIn
    · simp [refused taps, taps]
    · rw [answered taps]
      cases parsed.resolve registry.environment <;> simp [taps]

/-- The job with the name of the stand-in is tapped, and the tap is not mistaken for a
self-tap.  The manifest is the one that the settings name. -/
theorem resolve_unnamed_tapJob :
    let settings : Settings := ⟨1, some 40, "warn", some "m.json"⟩
    let manifest : Manifest :=
      ⟨1, [⟨"main", .stream, "http | file"⟩, ⟨"definition", .job, "batch"⟩]⟩
    let tree : FileTree :=
      ⟨.folder [("m.json", .file manifest.toJson.pretty.toUTF8)], []⟩
    let registry := (manifest.deployInto settings.registry).2
    let text := "tap:job:definition > log"
    let source : Channel := ⟨.tap .job, ["job", "definition"], [], ⟨0, 18⟩⟩
    let parsed : Pipeline :=
      ⟨none, some source, [⟨"log", none, [], ⟨21, 24⟩⟩], none, ⟨0, 24⟩⟩
    (Loads settings tree (none <|> settings.defaultManifest) registry ∧
      Pipeline.parse .stream text = .ok parsed ∧ parsed.name = none ∧
        registry.excess? text = none) ∧
      ((Command.resolve text none none .stream .canonical).script settings false).outcome
          tree =
        ⟨.fine, "tap:job:definition.batch > log\n", ""⟩ := by
  intro settings manifest tree registry text source parsed
  have located : tree.locate (Path.ofText "m.json") = .ok ["m.json"] :=
    eq_ok_of_toOption (by decide +kernel)
  have loaded : Manifest.load tree "m.json" = .ok manifest :=
    Manifest.load_of_located (by decide) located (by decide +kernel) rfl
  have loads : Loads settings tree (none <|> settings.defaultManifest) registry :=
    .manifest loaded
  have read : Pipeline.parse .stream text = .ok parsed :=
    eq_ok_of_toOption (by decide +kernel)
  have fits : registry.excess? text = none := by decide +kernel
  have tapsOthers : ¬Definition.Taps ⟨standIn, .stream, text, parsed, none⟩ .stream
      standIn := by
    rintro ⟨channel, present, kind, -⟩
    cases present
    cases kind
  have resolves : parsed.resolve registry.environment =
      .ok { parsed with source := some (source.withIndex ["batch"]) } :=
    eq_ok_of_toOption (by decide +kernel)
  obtain ⟨-, answered, -⟩ := resolve_unnamed settings tree none registry loads text parsed
    read rfl fits .canonical false
  refine ⟨⟨loads, read, rfl, fits⟩, ?_⟩
  rw [(answered tapsOthers).1 _ resolves]
  decide +kernel

/-- A stream is deployed under the name of the stand-in, and a text without a name taps
it.  The tree resolves, and under another name the command shows it, but under none it
refuses the text. -/
theorem resolve_unnamed_tapStream :
    let manifest : Manifest := ⟨1, [⟨"definition", .stream, "http | file"⟩]⟩
    let tree : FileTree :=
      ⟨.folder [("m.json", .file manifest.toJson.pretty.toUTF8)], []⟩
    let registry := (manifest.deployInto Settings.default.registry).2
    let text := "tap:definition > log"
    let source : Channel := ⟨.tap .stream, ["definition"], [], ⟨0, 14⟩⟩
    let parsed : Pipeline :=
      ⟨none, some source, [⟨"log", none, [], ⟨17, 20⟩⟩], none, ⟨0, 20⟩⟩
    let resolved : Pipeline :=
      { parsed with source := some (source.withIndex ["http"]) }
    let run name :=
      ((Command.resolve text (some "m.json") name .stream .canonical).script .default
        false).outcome tree
    (Loads .default tree (some "m.json") registry ∧ registry.names = ["definition"]) ∧
      (Pipeline.parse .stream text = .ok parsed ∧ parsed.name = none ∧
        registry.excess? text = none ∧
          parsed.resolve registry.environment = .ok resolved) ∧
        run (some "audit") = ⟨.fine, "tap:stream:definition.http > log\n", ""⟩ ∧
          run none = ⟨.invalid, "", "definition 'definition' cannot tap itself\n"⟩ := by
  intro manifest tree registry text source parsed resolved run
  have located : tree.locate (Path.ofText "m.json") = .ok ["m.json"] :=
    eq_ok_of_toOption (by decide +kernel)
  have loaded : Manifest.load tree "m.json" = .ok manifest :=
    Manifest.load_of_located (by decide) located (by decide +kernel) rfl
  have loads : Loads .default tree (some "m.json") registry := .manifest loaded
  have shown (name : Option String) :
      run name = showResolved registry text name .stream .canonical false := by
    obtain ⟨failures, same⟩ := loads.exists_outcome
      fun registry _ => showResolved registry text name .stream .canonical false
    exact same
  refine ⟨⟨loads, ?_⟩, ⟨eq_ok_of_toOption ?_, rfl, ?_, eq_ok_of_toOption ?_⟩, ?_, ?_⟩
  · decide +kernel
  · decide +kernel
  · decide +kernel
  · decide +kernel
  · rw [shown]
    decide +kernel
  · rw [shown]
    decide +kernel

end CommandLine

end Tapline
