import Mathlib.Logic.Relation
import Tapline.Proofs.Registry.Operations
import Tapline.Proofs.RoundTrip

/-!
# Looking modules and arguments up

A module is looked up by its label and an argument by its name.  A lookup stops
at the first match, and where a key comes again, the later entry takes the place
of the earlier one.  Both are harmless as long as the keys are distinct, and they
are distinct in everything that is read.  A label may well be the name of another
module, if that one has a label of its own.

Resolving changes channels only, so a definition answers as the text does, however
often it has been resolved.
-/

namespace Tapline

namespace Module

theorem argument?_eq_some {module : Module}
    (distinct : (module.arguments.map Argument.name).Nodup) {name value : String} :
    module.argument? name = some value ↔
      ∃ argument ∈ module.arguments, argument.name = name ∧ argument.value = value := by
  simp only [argument?, Option.map_eq_some_iff, find?_key_eq_some distinct, and_assoc]

end Module

namespace Pipeline

theorem moduleLabeled?_eq_some {pipeline : Pipeline} (distinct : pipeline.labels.Nodup)
    {label : String} {module : Module} :
    pipeline.moduleLabeled? label = some module ↔
      module ∈ pipeline.modules ∧ module.labelName = label :=
  find?_key_eq_some distinct

theorem moduleLabeled?_labelAt? {pipeline : Pipeline} (distinct : pipeline.labels.Nodup)
    {position : Nat} (inside : position < pipeline.modules.length) :
    (pipeline.labelAt? position).bind pipeline.moduleLabeled? =
      some pipeline.modules[position] := by
  have label : pipeline.labelAt? position = some pipeline.modules[position].labelName := by
    simp [labelAt?, labels, inside]
  rw [label, Option.bind_some]
  exact (moduleLabeled?_eq_some distinct).mpr ⟨List.getElem_mem inside, rfl⟩

variable {kind : Kind} {text : String} {found : Pipeline}

theorem labels_nodup_of_parse (read : parse kind text = .ok found) :
    found.labels.Nodup :=
  found.labels_meaning ▸ (wellFormed_of_parse read).labels_nodup

theorem argumentNames_nodup_of_parse (read : parse kind text = .ok found) :
    ∀ module ∈ found.modules, (module.arguments.map Argument.name).Nodup := by
  intro module inside
  have wellFormed := (wellFormed_of_parse read).of_mem_modules module inside
  exact module.argumentNames_meaning ▸ wellFormed.arguments_nodup

end Pipeline

namespace Definition

theorem putEntry_of_new {Value : Type} {entries : List (String × Value)}
    {entry : String × Value} (new : entry.1 ∉ entries.map Prod.fst) :
    putEntry entries entry = entries ++ [entry] := by
  apply if_neg
  simpa using new

theorem foldl_putEntry {Value : Type} {before entries : List (String × Value)}
    (distinct : ((before ++ entries).map Prod.fst).Nodup) :
    entries.foldl putEntry before = before ++ entries := by
  induction entries generalizing before with
  | nil => simp
  | cons entry rest induction =>
      have new : entry.1 ∉ before.map Prod.fst := by
        rw [List.map_append, List.nodup_append] at distinct
        intro inside
        exact distinct.2.2 _ inside _ List.mem_cons_self rfl
      rw [List.foldl_cons, putEntry_of_new new, induction (by simpa using distinct),
        List.append_assoc, List.singleton_append]

/-- The second definition is the first one as some environment resolves it. -/
def ResolvesTo (before after : Definition) : Prop :=
  ∃ environment, before.resolve environment = .ok after

/-- A resolution starts from the tree as written and leaves its modules alone. -/
theorem ResolvesTo.modules {before after : Definition} (resolves : before.ResolvesTo after) :
    after.parsed = before.parsed ∧ after.tree.modules = before.parsed.modules := by
  obtain ⟨environment, resolves⟩ := resolves
  obtain ⟨tree, treeResolves, rfl⟩ := resolve_eq_ok.mp resolves
  obtain ⟨source, sink, -, -, rfl⟩ := Pipeline.resolve_eq_ok.mp treeResolves
  exact ⟨rfl, rfl⟩

/-- However often a definition has been resolved, its modules are those that were
read. -/
theorem modules_of_resolutions {kind : Kind} {name text : String}
    {definition current : Definition} (read : parse kind name text = .ok definition)
    (resolutions : Relation.ReflTransGen ResolvesTo definition current) :
    Pipeline.parse kind text = .ok current.parsed ∧
      current.tree.modules = current.parsed.modules := by
  induction resolutions with
  | refl =>
      obtain ⟨parsed, readTree, -, rfl⟩ := parse_eq_ok.mp read
      exact ⟨readTree, rfl⟩
  | tail _ resolves induction =>
      obtain ⟨sameTree, modules⟩ := resolves.modules
      rw [sameTree]
      exact ⟨induction.1, modules⟩

/-- A label is answered with the arguments of the module that it belongs to. -/
theorem arguments?_of_tree {definition : Definition} {parsed : Pipeline}
    (modules : definition.tree.modules = parsed.modules)
    (labels : parsed.labels.Nodup) {module : Module} (inside : module ∈ parsed.modules)
    (arguments : (module.arguments.map Argument.name).Nodup) :
    definition.arguments? module.labelName =
      some (module.arguments.map Argument.entry) := by
  have found : definition.tree.moduleLabeled? module.labelName = some module := by
    rw [Pipeline.moduleLabeled?, modules]
    exact (Pipeline.moduleLabeled?_eq_some labels).mpr ⟨inside, rfl⟩
  have distinct : (([] ++ module.arguments.map Argument.entry).map Prod.fst).Nodup :=
    module.argumentNames_meaning ▸ arguments
  rw [arguments?, found, Option.map_some, foldl_putEntry distinct, List.nil_append]

end Definition

namespace Pipeline

/-- In what has been read, the label at a position leads to the module there, and
the name of an argument to its value.  The definition with the text, resolved or
not, lists under the label of a module just the arguments written there. -/
theorem lookups_of_parse (kind : Kind) (text : String) (found : Pipeline)
    (read : parse kind text = .ok found) :
    (∀ (position : Nat) (inside : position < found.modules.length),
      (found.labelAt? position).bind found.moduleLabeled? =
        some found.modules[position]) ∧
    (∀ module ∈ found.modules, ∀ argument ∈ module.arguments,
      module.argument? argument.name = some argument.value) ∧
    ∀ name definition current, Definition.parse kind name text = .ok definition →
      Relation.ReflTransGen Definition.ResolvesTo definition current →
        ∀ module ∈ found.modules,
          current.arguments? module.labelName =
            some (module.arguments.map Argument.entry) := by
  have labels := labels_nodup_of_parse read
  have arguments := argumentNames_nodup_of_parse read
  refine ⟨fun _ inside => moduleLabeled?_labelAt? labels inside, ?_, ?_⟩
  · intro module inside argument member
    exact (Module.argument?_eq_some (arguments module inside)).mpr
      ⟨argument, member, rfl, rfl⟩
  · intro name definition current readDefinition resolutions module inside
    obtain ⟨readTree, modules⟩ :=
      Definition.modules_of_resolutions readDefinition resolutions
    obtain rfl : found = current.parsed := Except.ok.inj (read.symm.trans readTree)
    exact Definition.arguments?_of_tree modules labels inside (arguments module inside)

/-- Two modules carry the names of each other as labels, both have an argument with
one name, and the tap gets a label of its target.  The label `http` leads to the
module `log`. -/
theorem lookups_of_parse_crossed :
    let text := "audit = tap:main.1 > log: http --b=2 --a=1 | http: log --b=3 | file"
    let written : Channel := ⟨.tap .stream, ["main"], ["1"], ⟨8, 18⟩⟩
    let http : Module := ⟨"http", some "log", [⟨"b", "2", ⟨31, 36⟩⟩, ⟨"a", "1", ⟨37, 42⟩⟩],
      ⟨21, 42⟩⟩
    let log : Module := ⟨"log", some "http", [⟨"b", "3", ⟨55, 60⟩⟩], ⟨45, 60⟩⟩
    let file : Module := ⟨"file", none, [], ⟨63, 67⟩⟩
    let found : Pipeline :=
      ⟨some "audit", some written, [http, log, file], none, ⟨0, 67⟩⟩
    let resolved : Pipeline :=
      { found with source := some (written.withIndex ["file"]) }
    let definition : Definition := ⟨"audit", .stream, text, found, none⟩
    let current : Definition := ⟨"audit", .stream, text, found, some resolved⟩
    (parse .stream text = .ok found ∧
      Definition.parse .stream "audit" text = .ok definition ∧
        definition.ResolvesTo current) ∧
      (found.labelAt? 1).bind found.moduleLabeled? = some log ∧
        log.argument? "b" = some "3" ∧
          current.arguments? "log" = some [("b", "2"), ("a", "1")] := by
  intro text written http log file found resolved definition current
  have read : parse .stream text = .ok found := eq_ok_of_toOption (by decide +kernel)
  have readDefinition : Definition.parse .stream "audit" text = .ok definition :=
    Definition.parse_eq_ok.mpr ⟨found, read, by simp [found], rfl⟩
  have resolves : definition.ResolvesTo current :=
    ⟨⟨fun _ _ => some ⟨some "main", none, [http, file], none, ⟨0, 67⟩⟩⟩,
      eq_ok_of_toOption (by decide +kernel)⟩
  obtain ⟨positions, values, listed⟩ := lookups_of_parse .stream text found read
  refine ⟨⟨read, readDefinition, resolves⟩, positions 1 (by decide), ?_, ?_⟩
  · exact values log (by simp [found]) ⟨"b", "3", ⟨55, 60⟩⟩ (by simp [log])
  · exact listed "audit" definition current readDefinition (.single resolves) http
      (by simp [found])

end Pipeline

end Tapline
