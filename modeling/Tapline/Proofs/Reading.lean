import Tapline.Proofs.Consumption

/-!
# What readers consume and report

For each reader of the parser it is shown what it consumes when it succeeds and
what it reports when it fails.  Spans reach over what was consumed for them, and
the parts of a phrase come from runs of its lexemes, in their order.
-/

namespace Tapline

open Lexeme (Spanned Runs)

/-- The span of the module reaches over the lexemes, and those of its arguments
over runs of them. -/
def Module.Laid (lexemes : List Lexeme) (module : Module) : Prop :=
  Spanned lexemes module.span ∧
    Runs Spanned lexemes (module.arguments.map Argument.span)

namespace Pipeline

/-- The spans of the source, the modules and the sink. -/
def partSpans (pipeline : Pipeline) : List Span :=
  pipeline.source.toList.map Channel.span ++ pipeline.modules.map Module.span ++
    pipeline.sink.toList.map Channel.span

theorem span_mem_partSpans {pipeline : Pipeline} {channel : Channel}
    (member : channel ∈ pipeline.channels) : channel.span ∈ pipeline.partSpans := by
  rcases List.mem_append.mp member with inSource | inSink
  · apply List.mem_append_left
    exact List.mem_append_left _ (List.mem_map_of_mem inSource)
  · exact List.mem_append_right _ (List.mem_map_of_mem inSink)

/-- The span of the pipeline reaches over the lexemes, and those of its parts
over runs of them. -/
structure Laid (lexemes : List Lexeme) (pipeline : Pipeline) : Prop where
  spanned : Spanned lexemes pipeline.span
  parts : Runs Spanned lexemes pipeline.partSpans
  modules : ∀ module ∈ pipeline.modules,
    ∃ used, used <:+: lexemes ∧ module.Laid used

end Pipeline

namespace Cursor

variable {cursor : Cursor}

theorem segment_reads {make : String → Problem}
    (kind : ∀ found, (make found).kind = .syntactic) (closed : cursor.Closed) :
    cursor.Reads (fun used _ => used ≠ []) (cursor.segment make) := by
  unfold segment
  split
  · rename_i text found
    have consumed := closed.consumes (Token.isPlain_of_segment? found)
    exact ⟨[cursor.current], consumed, List.cons_ne_nil _ _⟩
  · exact cursor.reports_unexpected kind

theorem segments_reads {separator : Token} {isSeparator : separator.segment? = none}
    {make : String → Problem} (kind : ∀ found, (make found).kind = .syntactic)
    (plain : separator.isPlain = true) (closed : cursor.Closed) :
    cursor.Reads (fun used texts => texts ≠ [] → used ≠ [])
      (cursor.segments separator isSeparator make) := by
  fun_induction segments separator isSeparator make cursor with
  | case1 cursor here diagnostic inner =>
      have sign := closed.consumes (here ▸ plain)
      exact ((segment_reads kind (sign.closed closed)).of_eq_error inner).behind sign
  | case2 cursor here text next inner shorter diagnostic tail induction =>
      have sign := closed.consumes (here ▸ plain)
      obtain ⟨first, consumed, -⟩ :=
        (segment_reads kind (sign.closed closed)).of_eq_ok inner
      have both := sign.trans consumed
      exact ((induction (both.closed closed)).of_eq_error tail).behind both
  | case3 cursor here text next inner shorter more last tail induction =>
      have sign := closed.consumes (here ▸ plain)
      obtain ⟨first, consumed, -⟩ :=
        (segment_reads kind (sign.closed closed)).of_eq_ok inner
      have both := sign.trans consumed
      obtain ⟨others, later, -⟩ := (induction (both.closed closed)).of_eq_ok tail
      exact ⟨_, both.trans later, by simp⟩
  | case4 cursor elsewhere =>
      exact ⟨[], .stay cursor, by simp⟩

theorem channelKeyword?_consumes {keyword : ChannelKeyword} (closed : cursor.Closed)
    (opening : cursor.channelKeyword? = some keyword) :
    cursor.Consumes [cursor.current, cursor.advance.current] cursor.advance.advance :=
  closed.consumes_opens (channelKeyword?_eq_some_iff.mp opening) rfl

theorem channel_reads {keyword : ChannelKeyword} (closed : cursor.Closed)
    (opening : cursor.channelKeyword? = some keyword) :
    cursor.Reads (fun used channel => Spanned used channel.span)
      (cursor.channel keyword) := by
  have signs := channelKeyword?_consumes closed opening
  unfold channel
  refine signs.bind closed (segment_reads fun _ => rfl) ?_
  intro first cursor₁ firstUsed consumed₁ _ _
  refine consumed₁.bind closed (segments_reads (fun _ => rfl) rfl) ?_
  intro more cursor₂ moreUsed consumed₂ _ _
  refine consumed₂.bind closed (segments_reads (fun _ => rfl) rfl) ?_
  intro index cursor₃ indexUsed consumed₃ _ indexed
  have spanned := consumed₃.spanned (by simp)
  dsimp only
  split
  · rename_i refused
    -- The problem is reported where the index begins, which has been passed by now.
    have written : index ≠ [] := by
      intro empty
      simp [empty] at refused
    obtain ⟨dot, rest, rfl⟩ := List.exists_cons_of_ne_nil (indexed written)
    have here : cursor₂.current = dot := consumed₂.current_eq consumed₃
    have spannedDot : Spanned [dot] cursor₂.span := by
      rw [span, here]
      exact Lexeme.spanned_singleton dot
    exact consumed₃.reports ⟨_, rest, List.append_assoc _ _ _⟩ spannedDot rfl
  · split
    · exact consumed₃.reports (List.infix_refl _) spanned rfl
    · exact ⟨_, consumed₃, spanned⟩

theorem label_reads (closed : cursor.Closed) :
    cursor.Reads (fun _ _ => True) cursor.label := by
  unfold label
  split
  · rename_i text here next
    split
    · exact reports_failure (by rw [here]; rfl) rfl
    · exact ⟨_, closed.consumes_opens ⟨here, next⟩ rfl, trivial⟩
  · exact ⟨[], .stay cursor, trivial⟩

theorem moduleName_reads (closed : cursor.Closed) :
    cursor.Reads (fun used _ => used ≠ []) cursor.moduleName := by
  unfold moduleName
  split
  · rename_i text here
    exact ⟨_, closed.consumes (by rw [here]; rfl), List.cons_ne_nil _ _⟩
  · exact cursor.reports_unexpected fun _ => rfl

theorem argument_reads {name : String} (closed : cursor.Closed)
    (flag : cursor.token = .flag name) :
    cursor.Reads (fun used argument => Spanned used argument.span)
      (cursor.argument name) := by
  have dashes := closed.consumes (by rw [flag]; rfl)
  unfold argument
  split
  · exact reports_failure (by rw [flag]; rfl) rfl
  · dsimp only
    split
    · rename_i equals
      have sign := dashes.trans ((dashes.closed closed).consumes (by rw [equals]; rfl))
      split
      · rename_i value literal
        have whole := sign.trans ((sign.closed closed).consumes (by rw [literal]; rfl))
        exact ⟨_, whole, whole.spanned (by simp)⟩
      · exact (reports_unexpected _ fun _ => rfl).behind sign
    · exact (reports_unexpected _ fun _ => rfl).behind dashes

theorem arguments_reads {module : String} {seen : List String}
    (closed : cursor.Closed) :
    cursor.Reads (fun used arguments => Runs Spanned used (arguments.map Argument.span))
      (cursor.arguments module seen) := by
  fun_induction arguments module seen cursor with
  | case1 seen cursor name flag diagnostic inner =>
      exact (argument_reads closed flag).of_eq_error inner
  | case2 seen cursor name flag argument next inner repeated =>
      exact reports_failure (by rw [flag]; rfl) rfl
  | case3 seen cursor name flag argument next inner fresh shorter diagnostic tail
      induction =>
      obtain ⟨used, consumed, -⟩ := (argument_reads closed flag).of_eq_ok inner
      exact ((induction (consumed.closed closed)).of_eq_error tail).behind consumed
  | case4 seen cursor name flag argument next inner fresh shorter more last tail
      induction =>
      obtain ⟨used, consumed, spanned⟩ := (argument_reads closed flag).of_eq_ok inner
      obtain ⟨others, later, runs⟩ :=
        (induction (consumed.closed closed)).of_eq_ok tail
      exact ⟨used ++ others, consumed.trans later, (Runs.single spanned).append runs⟩
  | case5 => exact ⟨[], .stay _, .nil _⟩

theorem module_reads (closed : cursor.Closed) :
    cursor.Reads Module.Laid cursor.module := by
  unfold module
  refine closed.bind label_reads ?_
  intro label cursor₁ labelUsed consumed₁ _ _
  refine consumed₁.bind closed moduleName_reads ?_
  intro name cursor₂ nameUsed consumed₂ _ nonempty
  refine consumed₂.bind closed arguments_reads ?_
  intro arguments cursor₃ argumentUsed consumed₃ _ runs
  refine ⟨_, consumed₃, ?_, runs.behind _⟩
  -- The name is there even if the label and the arguments are not.
  exact consumed₃.spanned (by simp [nonempty])

theorem modulesAfterPipe_reads (closed : cursor.Closed) :
    cursor.Reads (Runs Module.Laid) cursor.modulesAfterPipe := by
  fun_induction modulesAfterPipe cursor with
  | case1 cursor pipe dangling =>
      exact reports_failure (by rw [pipe]; rfl) rfl
  | case2 cursor pipe proper diagnostic inner =>
      have sign := closed.consumes (by rw [pipe]; rfl)
      exact ((module_reads (sign.closed closed)).of_eq_error inner).behind sign
  | case3 cursor pipe proper module next inner shorter diagnostic tail induction =>
      have sign := closed.consumes (by rw [pipe]; rfl)
      obtain ⟨used, consumed, -⟩ := (module_reads (sign.closed closed)).of_eq_ok inner
      have both := sign.trans consumed
      exact ((induction (both.closed closed)).of_eq_error tail).behind both
  | case4 cursor pipe proper module next inner shorter more last tail induction =>
      have sign := closed.consumes (by rw [pipe]; rfl)
      obtain ⟨used, consumed, laid⟩ :=
        (module_reads (sign.closed closed)).of_eq_ok inner
      have both := sign.trans consumed
      obtain ⟨others, later, runs⟩ := (induction (both.closed closed)).of_eq_ok tail
      exact ⟨_, both.trans later, ((Runs.single laid).behind _).append runs⟩
  | case5 => exact ⟨[], .stay _, .nil _⟩

theorem modules_reads (closed : cursor.Closed) :
    cursor.Reads (fun used modules => used ≠ [] ∧ Runs Module.Laid used modules)
      cursor.modules := by
  unfold modules
  split
  · rename_i here
    exact reports_failure (by rw [here]; rfl) rfl
  · rename_i here
    exact reports_failure (by rw [here]; rfl) rfl
  · refine closed.bind module_reads ?_
    intro first cursor₁ firstUsed consumed₁ _ laid
    refine consumed₁.bind closed modulesAfterPipe_reads ?_
    intro more cursor₂ moreUsed consumed₂ _ runs
    exact ⟨_, consumed₂, by simp [laid.1.1], (Runs.single laid).append runs⟩

theorem definitionName_consumes (closed : cursor.Closed) :
    ∃ used, cursor.Consumes used cursor.definitionName.2 := by
  unfold definitionName
  split
  · rename_i text here next
    exact ⟨_, closed.consumes_opens ⟨here, next⟩ rfl⟩
  · exact ⟨[], .stay cursor⟩

theorem source_reads (closed : cursor.Closed) :
    cursor.Reads
      (fun used source => Runs Spanned used (source.toList.map Channel.span))
      cursor.source := by
  unfold source
  split
  · exact ⟨[], .stay cursor, .nil _⟩
  · rename_i keyword opening
    refine closed.bind (channel_reads · opening) ?_
    intro channel cursor₁ used consumed closed₁ spanned
    dsimp only
    split
    · rename_i arrow
      have whole := consumed.trans (closed₁.consumes (by rw [arrow]; rfl))
      exact ⟨_, whole, (Runs.single spanned).append (.nil _)⟩
    · rename_i atEnd
      exact (reports_failure (by rw [atEnd]; rfl) rfl).behind consumed
    · exact (reports_unexpected _ fun _ => rfl).behind consumed

theorem sink_reads (closed : cursor.Closed) :
    cursor.Reads (fun used sink => Runs Spanned used (sink.toList.map Channel.span))
      cursor.sink := by
  unfold sink
  split
  · rename_i here
    have arrow := closed.consumes (by rw [here]; rfl)
    dsimp only
    split
    · exact reports_failure (by rw [here]; rfl) rfl
    · split
      · exact (reports_unexpected _ fun _ => rfl).behind arrow
      · rename_i keyword opening
        refine arrow.bind closed (channel_reads · opening) ?_
        intro channel cursor₁ used consumed _ spanned
        dsimp only
        split
        · exact consumed.reports (List.suffix_append _ used).isInfix spanned rfl
        · exact ⟨_, consumed, (Runs.single spanned).behind _⟩
  · exact ⟨[], .stay cursor, .nil _⟩

end Cursor

private theorem mem_of_firstRepeatedLabel? {seen : List String} {modules : List Module}
    {module : Module} (found : firstRepeatedLabel? seen modules = some module) :
    module ∈ modules := by
  fun_induction firstRepeatedLabel? seen modules with
  | case1 => simp at found
  | case2 seen first modules repeated =>
      cases found
      exact List.mem_cons_self
  | case3 seen first modules fresh induction =>
      exact List.mem_cons_of_mem _ (induction found)

namespace Pipeline

open Cursor (Consumes)

/-- The start has been brought to the end of the input, over the lexemes that
the pipeline is made of. -/
def ReadFrom (start : Cursor) (pipeline : Pipeline) : Prop :=
  ∃ used after, start.Consumes used after ∧ after.token = .endOfInput ∧
    pipeline.Laid used

theorem ofCursor_reads {start : Cursor} (closed : start.Closed) :
    Meets start.Reports (ReadFrom start) (ofCursor start) := by
  obtain ⟨used₁, consumed₁⟩ := start.definitionName_consumes closed
  unfold ofCursor
  generalize start.definitionName = named at consumed₁ ⊢
  obtain ⟨name, cursor₁⟩ := named
  refine consumed₁.bind closed Cursor.source_reads ?_
  intro source cursor₂ sourceUsed consumed₂ _ sourceRuns
  refine consumed₂.bind closed Cursor.modules_reads ?_
  intro modules cursor₃ modulesUsed consumed₃ _ ⟨nonempty, modulesRuns⟩
  refine consumed₃.bind closed Cursor.sink_reads ?_
  intro sink cursor₄ sinkUsed consumed₄ _ sinkRuns
  have inside : modulesUsed <:+: used₁ ++ sourceUsed ++ modulesUsed ++ sinkUsed :=
    ⟨used₁ ++ sourceUsed, sinkUsed, rfl⟩
  have laid : ∀ module ∈ modules, ∃ used,
      used <:+: used₁ ++ sourceUsed ++ modulesUsed ++ sinkUsed ∧
        module.Laid used := by
    intro module member
    obtain ⟨used, within, here⟩ := modulesRuns.exists_of_mem member
    exact ⟨used, within.trans inside, here⟩
  dsimp only
  split
  · rename_i atEnd
    split
    · rename_i module repeated
      obtain ⟨used, within, spanned, -⟩ := laid module (mem_of_firstRepeatedLabel? repeated)
      exact consumed₄.reports within spanned rfl
    · refine ⟨_, cursor₄, consumed₄, atEnd, ?_, ?_, laid⟩
      · exact consumed₄.spanned (by simp [nonempty])
      · have moduleSpans : Runs Spanned modulesUsed (modules.map Module.span) :=
          modulesRuns.map fun _ _ here => here.1
        exact ((sourceRuns.behind used₁).append moduleSpans).append sinkRuns
  · exact (cursor₄.reports_unexpected fun _ => rfl).behind consumed₄

private theorem asJob_reads {start : Cursor} {pipeline : Pipeline}
    (read : ReadFrom start pipeline) :
    Meets start.Reports (ReadFrom start) pipeline.asJob := by
  obtain ⟨used, after, consumed, atEnd, laid⟩ := id read
  unfold asJob
  split
  · rename_i channel others channels
    have member : channel ∈ pipeline.channels := by simp [channels]
    obtain ⟨run, within, spanned⟩ :=
      laid.parts.exists_of_mem (span_mem_partSpans member)
    exact consumed.reports within spanned rfl
  · rename_i first extra others _ modules
    have member : extra ∈ pipeline.modules := by simp [modules]
    obtain ⟨run, within, spanned, -⟩ := laid.modules extra member
    exact consumed.reports within spanned rfl
  · exact read

/-- The definition of either kind that lexemes spell is laid out on them, and a
failure reports what is wrong with them. -/
theorem ofLexemes_reads (kind : Kind) {lexemes : List Lexeme}
    (closed : (Cursor.ofLexemes lexemes).Closed) :
    Meets (Cursor.ofLexemes lexemes).Reports (ReadFrom (.ofLexemes lexemes))
      (ofLexemes kind lexemes) := by
  apply (ofCursor_reads closed).bind
  intro pipeline read
  cases kind with
  | stream => exact read
  | job => exact asJob_reads read

end Pipeline

end Tapline
