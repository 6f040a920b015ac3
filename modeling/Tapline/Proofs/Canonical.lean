import Tapline.Proofs.Canonical.Module

/-!
# Canonical texts

The canonical text of a tree with a well-formed meaning reads back as tokens
that the grammar derives.  The form they stand for differs from the meaning at
most by the echoes that taps are written with.
-/

namespace Tapline

namespace Pipeline

namespace Meaning

/-- What the grammar and the lexer demand of a pipeline. -/
structure WellFormed (pipeline : Meaning) : Prop where
  name_isWord : ∀ name ∈ pipeline.name, Text.IsWord name.toList
  source_wellFormed : ∀ channel ∈ pipeline.source, channel.WellFormed
  modules_wellFormed : ∀ module ∈ pipeline.modules, module.WellFormed
  modules_ne_nil : pipeline.modules ≠ []
  labels_nodup : (pipeline.modules.map Module.Meaning.labelName).Nodup
  sink_wellFormed : ∀ channel ∈ pipeline.sink, channel.WellFormed
  sink_no_tap : ∀ channel ∈ pipeline.sink, ∀ target, channel.kind ≠ .tap target

theorem wellFormed_single {source : Option Channel.Meaning} {module : Module.Meaning}
    (sourceFormed : ∀ channel ∈ source, channel.WellFormed)
    (moduleFormed : module.WellFormed) :
    WellFormed ⟨none, source, [module], none⟩ where
  name_isWord := by simp
  source_wellFormed := sourceFormed
  modules_wellFormed := List.forall_mem_singleton.mpr moduleFormed
  modules_ne_nil := List.cons_ne_nil _ _
  labels_nodup := by simp
  sink_wellFormed := by simp
  sink_no_tap := by simp

/-- The form with an echo in front of the target of every tap. -/
def form (pipeline : Meaning) : Form :=
  ⟨pipeline.name, pipeline.source.map Channel.Meaning.form, pipeline.modules,
    pipeline.sink.map Channel.Meaning.form⟩

def moduleTokens : List Module.Meaning → List Token
  | [] => []
  | first :: more =>
      first.tokens ++ more.flatMap fun module => .pipe :: module.tokens

/-- The tokens of a pipeline in its canonical form. -/
def tokens (pipeline : Meaning) : List Token :=
  pipeline.name.toList.flatMap (fun name => [.word name, .equals]) ++
    pipeline.source.toList.flatMap (fun channel => channel.tokens ++ [.arrow]) ++
      moduleTokens pipeline.modules ++
        pipeline.sink.toList.flatMap fun channel => .arrow :: channel.tokens

theorem meaning_form {pipeline : Meaning} (wellFormed : pipeline.WellFormed) :
    pipeline.form.meaning = pipeline := by
  obtain ⟨name, source, modules, sink⟩ := pipeline
  have sourceSame : (source.map Channel.Meaning.form).map Channel.Form.meaning =
      source := by
    cases source with
    | none => rfl
    | some channel =>
        exact congrArg some (Channel.Meaning.meaning_form
          (wellFormed.source_wellFormed channel rfl).target_ne_nil)
  have sinkSame : (sink.map Channel.Meaning.form).map Channel.Form.meaning =
      sink := by
    cases sink with
    | none => rfl
    | some channel =>
        exact congrArg some (Channel.Meaning.meaning_form
          (wellFormed.sink_wellFormed channel rfl).target_ne_nil)
  simp only [form, Form.meaning, sourceSame, sinkSame]

end Meaning

end Pipeline

namespace Grammar

private theorem star_module {modules : List Module.Meaning}
    (wellFormed : ∀ module ∈ modules, module.WellFormed) :
    Star (Behind .pipe Module) (modules.flatMap fun module => .pipe :: module.tokens)
      modules := by
  induction modules with
  | nil => exact .nil
  | cons module modules induction =>
      have phrase := module_tokens (wellFormed module List.mem_cons_self)
      exact .cons (.intro phrase) (induction fun later member =>
        wellFormed later (List.mem_cons_of_mem _ member))

/-- The tokens of a well-formed meaning are derived, with their canonical form. -/
theorem definition_tokens {pipeline : Pipeline.Meaning}
    (wellFormed : pipeline.WellFormed) :
    Definition pipeline.tokens pipeline.form := by
  obtain ⟨name, source, modules, sink⟩ := pipeline
  have namePhrase : Optional (Before .equals Word)
      (name.toList.flatMap fun name => [.word name, .equals]) name := by
    cases name with
    | none => exact .none
    | some text => simpa using Optional.some (Before.intro (Word.intro text))
  have sourcePhrase : Optional (Before .arrow Channel)
      (source.toList.flatMap fun channel => channel.tokens ++ [.arrow])
      (source.map Channel.Meaning.form) := by
    cases source with
    | none => exact .none
    | some channel =>
        have phrase := channel_tokens (wellFormed.source_wellFormed channel rfl)
        simpa using Optional.some (Before.intro phrase)
  have sinkPhrase : Optional (Behind .arrow Channel)
      (sink.toList.flatMap fun channel => .arrow :: channel.tokens)
      (sink.map Channel.Meaning.form) := by
    cases sink with
    | none => exact .none
    | some channel =>
        have phrase := channel_tokens (wellFormed.sink_wellFormed channel rfl)
        simpa using Optional.some (Behind.intro phrase)
  have noTap : ∀ channel ∈ sink.map Channel.Meaning.form, ∀ target,
      channel.kind ≠ .tap target := by
    intro form member
    obtain ⟨channel, inside, rfl⟩ := Option.map_eq_some_iff.mp member
    exact wellFormed.sink_no_tap channel inside
  cases modules with
  | nil => exact (wellFormed.modules_ne_nil rfl).elim
  | cons first more =>
      have morePhrase := star_module fun module member =>
        wellFormed.modules_wellFormed module (List.mem_cons_of_mem _ member)
      have firstPhrase :=
        module_tokens (wellFormed.modules_wellFormed first List.mem_cons_self)
      simpa [Pipeline.Meaning.tokens, Pipeline.Meaning.moduleTokens,
        Pipeline.Meaning.form] using Definition.intro namePhrase sourcePhrase
          firstPhrase morePhrase sinkPhrase noTap wellFormed.labels_nodup

end Grammar

namespace Pipeline

def laterText (modules : List Module) : List Char :=
  modules.flatMap fun module =>
    ' ' :: '|' :: ' ' :: (module.render .canonical).toList

private theorem toList_text {pipeline : Pipeline} {first : Module} {more : List Module}
    (modules : pipeline.modules = first :: more) :
    pipeline.text.toList =
      pipeline.name.toList.flatMap
          (fun name => name.toList ++ [' ', '=', ' ']) ++
        (pipeline.source.toList.flatMap
            (fun channel => channel.qualifiedName.toList ++ [' ', '>', ' ']) ++
          ((first.render .canonical).toList ++
            (laterText more ++
              pipeline.sink.toList.flatMap
                fun channel => ' ' :: '>' :: ' ' :: channel.qualifiedName.toList))) := by
  have pipe : " | ".toList = [' ', '|', ' '] := rfl
  have arrow : " > ".toList = [' ', '>', ' '] := rfl
  have equals : " = ".toList = [' ', '=', ' '] := rfl
  cases name : pipeline.name <;> cases source : pipeline.source <;>
    cases sink : pipeline.sink <;>
    simp [text, render, name, source, sink, modules, pipe, arrow, equals, pipeSign,
      arrowSign, Channel.render, laterText, intercalate_cons, List.flatMap_map]

private theorem tokens_laterText {modules : List Module}
    (wellFormed : ∀ module ∈ modules, module.meaning.WellFormed)
    {rest : List Char} (apart : Text.StartsApart rest) :
    Text.StartsApart (laterText modules ++ rest) ∧
      Piece.tokens .ordinary (laterText modules ++ rest) =
        (modules.map Module.meaning).flatMap (fun module => .pipe :: module.tokens) ++
          Piece.tokens .ordinary rest := by
  induction modules with
  | nil => exact ⟨apart, rfl⟩
  | cons module modules induction =>
      obtain ⟨apartLater, induction⟩ := induction fun later member =>
        wellFormed later (List.mem_cons_of_mem _ member)
      refine ⟨.space _, ?_⟩
      have first := wellFormed module List.mem_cons_self
      simp only [laterText, List.flatMap_cons, List.cons_append, List.append_assoc,
        Piece.tokens_space, Piece.tokens_pipe] at induction apartLater ⊢
      rw [Module.tokens_render first apartLater, induction]
      simp

private theorem tokens_nameText {name : Option String}
    (isWord : ∀ text ∈ name, Text.IsWord text.toList) (rest : List Char) :
    Piece.tokens .ordinary
        (name.toList.flatMap (fun text => text.toList ++ [' ', '=', ' ']) ++ rest) =
      name.toList.flatMap (fun text => [.word text, .equals]) ++
        Piece.tokens .ordinary rest := by
  cases name with
  | none => rfl
  | some text =>
      have apart := Text.StartsApart.space ('=' :: ' ' :: rest)
      simpa using Piece.tokens_word (isWord text rfl) apart.endsWord

private theorem tokens_sourceText {source : Option Channel}
    (wellFormed : ∀ channel ∈ source, channel.meaning.WellFormed)
    (rest : List Char) :
    Piece.tokens .ordinary
        (source.toList.flatMap
          (fun channel => channel.qualifiedName.toList ++ [' ', '>', ' ']) ++ rest) =
      (source.map Channel.meaning).toList.flatMap
          (fun channel => channel.tokens ++ [.arrow]) ++
        Piece.tokens .ordinary rest := by
  cases source with
  | none => rfl
  | some channel =>
      have apart := Text.StartsApart.space ('>' :: ' ' :: rest)
      simpa using
        Channel.tokens_qualifiedName (wellFormed channel rfl) apart.endsWord

private theorem tokens_sinkText {sink : Option Channel}
    (wellFormed : ∀ channel ∈ sink, channel.meaning.WellFormed) :
    Piece.tokens .ordinary
        (sink.toList.flatMap
          fun channel => ' ' :: '>' :: ' ' :: channel.qualifiedName.toList) =
      (sink.map Channel.meaning).toList.flatMap
        fun channel => .arrow :: channel.tokens := by
  cases sink with
  | none => simp
  | some channel =>
      simpa using
        Channel.tokens_qualifiedName (wellFormed channel rfl)
          Text.StartsApart.nil.endsWord

namespace Meaning.WellFormed

variable {pipeline : Pipeline}

theorem of_mem_source (wellFormed : pipeline.meaning.WellFormed) :
    ∀ channel ∈ pipeline.source, channel.meaning.WellFormed :=
  fun channel member => wellFormed.source_wellFormed channel.meaning
    (Option.mem_map_of_mem Channel.meaning member)

theorem of_mem_modules (wellFormed : pipeline.meaning.WellFormed) :
    ∀ module ∈ pipeline.modules, module.meaning.WellFormed :=
  fun module member => wellFormed.modules_wellFormed module.meaning
    (List.mem_map_of_mem member)

private theorem of_mem_sink (wellFormed : pipeline.meaning.WellFormed) :
    ∀ channel ∈ pipeline.sink, channel.meaning.WellFormed :=
  fun channel member => wellFormed.sink_wellFormed channel.meaning
    (Option.mem_map_of_mem Channel.meaning member)

theorem no_tap_of_mem_sink (wellFormed : pipeline.meaning.WellFormed) :
    ∀ channel ∈ pipeline.sink, ∀ target, channel.kind ≠ .tap target :=
  fun channel member => wellFormed.sink_no_tap channel.meaning
    (Option.mem_map_of_mem Channel.meaning member)

end Meaning.WellFormed

theorem tokens_text {pipeline : Pipeline} (wellFormed : pipeline.meaning.WellFormed) :
    Piece.tokens .ordinary pipeline.text.toList = pipeline.meaning.tokens := by
  have modulesFormed := wellFormed.of_mem_modules
  cases modules : pipeline.modules with
  | nil =>
      exact absurd wellFormed.modules_ne_nil (by simp [Pipeline.meaning, modules])
  | cons first more =>
      rw [modules] at modulesFormed
      have apartSink : Text.StartsApart (pipeline.sink.toList.flatMap
          fun channel => ' ' :: '>' :: ' ' :: channel.qualifiedName.toList) := by
        cases pipeline.sink with
        | none => exact .nil
        | some channel => exact .space _
      obtain ⟨apartMore, moreTokens⟩ := tokens_laterText
        (fun later member => modulesFormed later (List.mem_cons_of_mem _ member))
        apartSink
      have nameIsWord : ∀ name ∈ pipeline.name, Text.IsWord name.toList :=
        wellFormed.name_isWord
      rw [toList_text modules, tokens_nameText nameIsWord,
        tokens_sourceText wellFormed.of_mem_source,
        Module.tokens_render (modulesFormed first List.mem_cons_self) apartMore,
        moreTokens, tokens_sinkText wellFormed.of_mem_sink]
      simp [Meaning.tokens, Meaning.moduleTokens, Pipeline.meaning, modules]

end Pipeline

end Tapline
