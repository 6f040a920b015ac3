import Tapline.Proofs.Canonical
import Tapline.Proofs.Recognition

/-!
# Reading back what was written

A tree that was read from a text is well formed, because the text was cut into
properly spelled tokens and the grammar derives them.  The canonical text of a
well-formed tree is read again.  What comes out has the same meaning, and since
the canonical text depends on the meaning alone, writing it once more changes
nothing.
-/

namespace Tapline

namespace Grammar

/-- Whatever a phrase stands for has the property, if its tokens are spelled. -/
def Ensures (phrase : List Token → α → Prop) (property : α → Prop) : Prop :=
  ∀ ⦃tokens value⦄, phrase tokens value → (∀ token ∈ tokens, token.Spelled) →
    property value

namespace Ensures

variable {phrase : List Token → α → Prop} {property : α → Prop}

theorem star (ensures : Ensures phrase property) :
    Ensures (Star phrase) fun values => ∀ value ∈ values, property value := by
  intro tokens values phrases spelled
  induction phrases with
  | nil => simp
  | cons first _ induction =>
      rw [List.forall_mem_append] at spelled
      rw [List.forall_mem_cons]
      exact ⟨ensures first spelled.1, induction spelled.2⟩

theorem optional (ensures : Ensures phrase property) :
    Ensures (Optional phrase) fun choice => ∀ value ∈ choice, property value := by
  intro tokens choice phrases spelled
  cases phrases with
  | none => simp
  | some present => simpa using ensures present spelled

theorem behind (sign : Token) (ensures : Ensures phrase property) :
    Ensures (Behind sign phrase) property := by
  rintro _ value ⟨present⟩ spelled
  exact ensures present (List.forall_mem_cons.mp spelled).2

theorem before (sign : Token) (ensures : Ensures phrase property) :
    Ensures (Before sign phrase) property := by
  rintro _ value ⟨present⟩ spelled
  exact ensures present (List.forall_mem_append.mp spelled).1

end Ensures

private theorem ensures_word : Ensures Word fun text => Text.IsWord text.toList := by
  rintro _ text ⟨⟩ spelled
  exact (List.forall_mem_singleton.mp spelled :)

private theorem ensures_segment : Ensures Segment Text.IsSegment := by
  intro tokens text phrase spelled
  cases phrase with
  | word => exact .inl (List.forall_mem_singleton.mp spelled :)
  | number => exact .inr (List.forall_mem_singleton.mp spelled :)

end Grammar

namespace Channel

theorem target_suffix (channel : Channel) :
    channel.target <:+ channel.segments := by
  unfold target
  split
  · rename_i segments
    split
    · exact segments ▸ List.suffix_cons _ _
    · exact List.suffix_refl _
  · exact List.suffix_refl _

theorem target_ne_nil {channel : Channel} (named : channel.segments ≠ []) :
    channel.target ≠ [] := by
  unfold target
  split
  · split
    · simp
    · exact named
  · exact named

end Channel

namespace Grammar

theorem Denotes.isTap {segments : List String} {kind : ChannelKind}
    (denotes : Denotes .tap segments kind) : kind.isTap = true := by
  cases denotes <;> rfl

/-- The parts of a name as it is written, and the index. -/
theorem ensures_channel_segments : Ensures Channel fun form =>
    (∀ segment ∈ form.segments, Text.IsSegment segment) ∧
      ∀ element ∈ form.index, Text.IsSegment element := by
  intro tokens form phrase spelled
  cases phrase with
  | @intro keyword kind first more index firstTokens moreTokens indexTokens
      firstPhrase morePhrase indexPhrase onlyTap denotes =>
      simp only [List.forall_mem_cons, List.forall_mem_append] at spelled
      obtain ⟨-, -, ⟨firstSpelled, moreSpelled⟩, indexSpelled⟩ := spelled
      have elements : ∀ element ∈ index, Text.IsSegment element :=
        (ensures_segment.behind .dot).optional indexPhrase indexSpelled
      constructor
      · exact List.forall_mem_cons.mpr
          ⟨ensures_segment firstPhrase firstSpelled,
            (ensures_segment.behind .colon).star morePhrase moreSpelled⟩
      · intro element member
        exact elements element (Option.mem_toList.mp member)

theorem ensures_channel : Ensures Channel fun form => form.meaning.WellFormed := by
  intro tokens form phrase spelled
  obtain ⟨segments, elements⟩ := ensures_channel_segments phrase spelled
  cases phrase with
  | @intro keyword kind first more index firstTokens moreTokens indexTokens
      firstPhrase morePhrase indexPhrase onlyTap denotes =>
      constructor
      · exact Channel.target_ne_nil (List.cons_ne_nil _ _)
      · intro segment member
        exact segments segment ((Channel.target_suffix _).subset member)
      · exact elements
      · cases index <;> simp [Channel.Form.meaning, Channel.Form.at, Channel.meaning]
      · intro indexed
        have present : index ≠ none := by
          rintro rfl
          exact indexed rfl
        exact (onlyTap present ▸ denotes).isTap

private theorem ensures_label : Ensures Label fun label =>
    Text.IsWord label.toList ∧ ∀ keyword : ChannelKeyword, label ≠ keyword.word := by
  rintro _ label ⟨free⟩ spelled
  exact ⟨(List.forall_mem_cons.mp spelled).1, free⟩

private theorem ensures_argument : Ensures Argument fun argument =>
    Text.WordTail argument.1.toList ∧ argument.1 ≠ "" := by
  rintro _ _ ⟨value, nonempty⟩ spelled
  exact ⟨(List.forall_mem_cons.mp spelled).1, nonempty⟩

theorem ensures_module : Ensures Module Module.Meaning.WellFormed := by
  intro tokens module phrase spelled
  cases phrase with
  | @intro label name arguments labelTokens argumentTokens labelPhrase
      argumentPhrase distinct =>
      simp only [List.forall_mem_cons, List.forall_mem_append] at spelled
      obtain ⟨labelSpelled, isWord, argumentSpelled⟩ := spelled
      have labels := ensures_label.optional labelPhrase labelSpelled
      have entries := ensures_argument.star argumentPhrase argumentSpelled
      exact {
        name_isWord := isWord
        label_isWord := fun label member => (labels label member).1
        label_ne_keyword := fun label member => (labels label member).2
        argument_spelled := fun argument member => (entries argument member).1
        argument_ne_empty := fun argument member => (entries argument member).2
        arguments_nodup := distinct }

theorem Ensures.channels {property : Channel.Form → Prop}
    (ensures : Ensures Channel property) : Ensures Definition fun form =>
      (∀ channel ∈ form.source, property channel) ∧
        ∀ channel ∈ form.sink, property channel := by
  intro tokens form phrase spelled
  cases phrase with
  | intro namePhrase sourcePhrase firstPhrase morePhrase sinkPhrase noTap labels =>
      simp only [List.forall_mem_append] at spelled
      obtain ⟨⟨⟨⟨-, sourceSpelled⟩, -⟩, -⟩, sinkSpelled⟩ := spelled
      constructor
      · exact (ensures.before .arrow).optional sourcePhrase sourceSpelled
      · exact (ensures.behind .arrow).optional sinkPhrase sinkSpelled

/-- The form that spelled tokens stand for has a well-formed meaning. -/
theorem ensures_definition :
    Ensures Definition fun form => form.meaning.WellFormed := by
  intro tokens form phrase spelled
  obtain ⟨sources, sinks⟩ := ensures_channel.channels phrase spelled
  cases phrase with
  | @intro name source sink first more nameTokens sourceTokens firstTokens
      moreTokens sinkTokens namePhrase sourcePhrase firstPhrase morePhrase
      sinkPhrase noTap labels =>
      simp only [List.forall_mem_append] at spelled
      obtain ⟨⟨⟨⟨nameSpelled, -⟩, firstSpelled⟩, moreSpelled⟩, -⟩ := spelled
      exact {
        name_isWord := (ensures_word.before .equals).optional namePhrase nameSpelled
        source_wellFormed := by simpa [Pipeline.Form.meaning] using sources
        modules_wellFormed := List.forall_mem_cons.mpr
          ⟨ensures_module firstPhrase firstSpelled,
            (ensures_module.behind .pipe).star morePhrase moreSpelled⟩
        modules_ne_nil := List.cons_ne_nil _ _
        labels_nodup := labels
        sink_wellFormed := by simpa [Pipeline.Form.meaning] using sinks
        sink_no_tap := by
          intro channel member
          obtain ⟨form, inside, rfl⟩ := Option.map_eq_some_iff.mp member
          exact noTap form inside }

end Grammar

namespace Pipeline

theorem faces_ofText (text : String) :
    (Cursor.ofLexemes (Lexeme.ofText text)).Faces
      (Piece.tokens .ordinary text.toList) := by
  have absent : .endOfInput ∉ Piece.tokens .ordinary text.toList :=
    fun member => Piece.spelled_of_mem_tokens member
  refine ⟨?_, absent⟩
  rw [← Lexeme.map_token_ofText]
  cases lexemes : Lexeme.ofText text with
  | nil =>
      have ends := Lexeme.map_token_ofText text
      simp [lexemes] at ends
  | cons first rest => rfl

theorem parse_job_eq_ok {text : String} {found : Pipeline} :
    parse .job text = .ok found ↔
      parse .stream text = .ok found ∧ found.meaning.source = none ∧
        found.meaning.sink = none ∧ found.meaning.modules.length ≤ 1 := by
  unfold parse
  rw [ofLexemes_job_eq_ok]
  simp [channels, meaning, and_assoc]

theorem definition_of_parse {kind : Kind} {text : String} {found : Pipeline}
    (read : parse kind text = .ok found) :
    Grammar.Definition (Piece.tokens .ordinary text.toList) found.form := by
  have readStream : parse .stream text = .ok found := by
    cases kind with
    | stream => exact read
    | job => exact (parse_job_eq_ok.mp read).1
  rw [parse, ofLexemes_stream] at readStream
  exact ofCursor_sound (faces_ofText text) readStream

theorem wellFormed_of_parse {kind : Kind} {text : String} {found : Pipeline}
    (read : parse kind text = .ok found) : found.meaning.WellFormed := by
  rw [← meaning_form]
  exact Grammar.ensures_definition (definition_of_parse read) fun token member =>
    Piece.spelled_of_mem_tokens member

theorem parse_of_definition {text : String} {tokens : List Token} {form : Form}
    (spelled : Piece.tokens .ordinary text.toList = tokens)
    (phrase : Grammar.Definition tokens form) :
    ∃ found, parse .stream text = .ok found ∧ found.form = form := by
  have faces := faces_ofText text
  rw [spelled] at faces
  obtain ⟨found, read, same⟩ := ofCursor_complete phrase faces
  exact ⟨found, (ofLexemes_stream _).trans read, same⟩

/-- A well-formed tree is read back from its text, with echoes in all taps. -/
theorem parse_text {pipeline : Pipeline} (wellFormed : pipeline.meaning.WellFormed) :
    ∃ again, parse .stream pipeline.text = .ok again ∧
      again.form = pipeline.meaning.form :=
  parse_of_definition (tokens_text wellFormed) (Grammar.definition_tokens wellFormed)

end Pipeline

/-- Lists that agree through one function agree through all that it determines. -/
theorem map_eq_of_determines {f : α → β} {g : α → γ}
    (determines : ∀ {left right}, f left = f right → g left = g right)
    {left right : List α} (same : left.map f = right.map f) :
    left.map g = right.map g := by
  induction left generalizing right with
  | nil =>
      have empty : right = [] := by simpa using same.symm
      rw [empty, List.map_nil]
  | cons first rest induction =>
      cases right with
      | nil => simp at same
      | cons other others =>
          obtain ⟨heads, tails⟩ := List.cons.inj same
          rw [List.map_cons, List.map_cons, determines heads, induction tails]

@[inherit_doc map_eq_of_determines]
theorem optionMap_eq_of_determines {f : α → β} {g : α → γ}
    (determines : ∀ {left right}, f left = f right → g left = g right)
    {left right : Option α} (same : left.map f = right.map f) :
    left.map g = right.map g := by
  cases left <;> cases right <;> simp at same ⊢
  exact determines same

theorem Channel.SameMeaning.qualifiedName_eq {left right : Channel}
    (same : left.SameMeaning right) : left.qualifiedName = right.qualifiedName := by
  obtain ⟨kind, target, index⟩ := Meaning.mk.inj same
  simp only [qualifiedName, targetName, indexText, kind, target, index]

private theorem Argument.text_eq_of_entry {left right : Argument}
    (same : left.entry = right.entry) : left.text = right.text := by
  obtain ⟨name, value⟩ := Prod.mk.inj same
  simp only [text, name, value]

theorem Module.SameMeaning.render_eq {left right : Module}
    (same : left.SameMeaning right) :
    left.render .canonical = right.render .canonical := by
  obtain ⟨name, label, entries⟩ := Meaning.mk.inj same
  have texts : left.arguments.map (fun argument => " " ++ argument.text) =
      right.arguments.map fun argument => " " ++ argument.text :=
    map_eq_of_determines
      (fun equality => congrArg _ (Argument.text_eq_of_entry equality)) entries
  simp only [render, labelText, argumentsText, name, label, texts]

namespace Pipeline

theorem SameMeaning.text_eq {left right : Pipeline} (same : left.SameMeaning right) :
    left.text = right.text := by
  obtain ⟨name, source, modules, sink⟩ := Meaning.mk.inj same
  have sourceText : left.source.map Channel.qualifiedName =
      right.source.map Channel.qualifiedName :=
    optionMap_eq_of_determines Channel.SameMeaning.qualifiedName_eq source
  have sinkText : left.sink.map Channel.qualifiedName =
      right.sink.map Channel.qualifiedName :=
    optionMap_eq_of_determines Channel.SameMeaning.qualifiedName_eq sink
  have modulesText : left.modules.map (·.render .canonical) =
      right.modules.map (·.render .canonical) :=
    map_eq_of_determines Module.SameMeaning.render_eq modules
  have parts (pipeline : Pipeline) : pipeline.text =
      (pipeline.name.map (· ++ " = ")).getD "" ++
        ((pipeline.source.map Channel.qualifiedName).map (· ++ " > ")).getD "" ++
        " | ".intercalate (pipeline.modules.map (·.render .canonical)) ++
        ((pipeline.sink.map Channel.qualifiedName).map (" > " ++ ·)).getD "" := by
    cases name : pipeline.name <;> cases source : pipeline.source <;>
      cases sink : pipeline.sink <;>
      simp [text, render, name, source, sink, pipeSign, arrowSign, Channel.render]
  rw [parts left, parts right, name, sourceText, modulesText, sinkText]

/-- The canonical text of whatever was read from a text is read again, as a job
if it was one.  It means the same, and its canonical text is the same text. -/
theorem parse_text_of_parse (kind : Kind) (text : String) (found : Pipeline)
    (read : parse kind text = .ok found) :
    ∃ again, parse kind found.text = .ok again ∧ found.SameMeaning again ∧
      again.text = found.text := by
  have wellFormed := wellFormed_of_parse read
  obtain ⟨again, readAgain, form⟩ := parse_text wellFormed
  have same : found.meaning = again.meaning := by
    rw [← meaning_form again, form, Meaning.meaning_form wellFormed]
  have readKind : parse kind found.text = .ok again := by
    cases kind with
    | stream => exact readAgain
    | job =>
        refine parse_job_eq_ok.mpr ⟨readAgain, ?_⟩
        rw [← same]
        exact (parse_job_eq_ok.mp read).2
  exact ⟨again, readKind, same, (SameMeaning.text_eq same).symm⟩

/-- An echo in other letters, a quoted value with a space that only Unicode
knows, an argument name that is no word, and tight spacing. -/
theorem parse_text_of_parse_audit :
    let text := "audit=tap:STREAM:main.2>t: filter --1x-y='a\u00a0\"b' --e=  '' |log>queue:a:b"
    let found : Pipeline :=
      ⟨some "audit", some ⟨.tap .stream, ["STREAM", "main"], ["2"], ⟨6, 23⟩⟩,
        [⟨"filter", some "t",
            [⟨"1x-y", "a\u00a0\"b", ⟨34, 48⟩⟩, ⟨"e", "", ⟨49, 57⟩⟩],
            ⟨24, 57⟩⟩,
          ⟨"log", none, [], ⟨59, 62⟩⟩],
        some ⟨.queue, ["a", "b"], [], ⟨63, 72⟩⟩, ⟨0, 72⟩⟩
    parse .stream text = .ok found ∧
      ∃ again, parse .stream found.text = .ok again ∧ found.SameMeaning again ∧
        again.text = found.text := by
  intro text found
  have read : parse .stream text = .ok found := eq_ok_of_toOption (by decide +kernel)
  exact ⟨read, parse_text_of_parse .stream text found read⟩

end Pipeline

end Tapline
