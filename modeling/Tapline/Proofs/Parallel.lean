import Tapline.Proofs.Recognition
import Tapline.Proofs.Consumption
import Tapline.Proofs.Separation

/-!
# Readers side by side

Two cursors have the same tokens ahead of them, at spans of which the second ones are
the first ones moved, up to a token at which a phrase may end.  There the second cursor
may go on in another way.  Whatever a reader returns at the first cursor, it returns at
the second one as well, with its spans moved, and leaves the two side by side.
-/

namespace Tapline

/-- The argument at a span that is moved. -/
def Argument.mapSpan (move : Span → Span) (argument : Argument) : Argument :=
  { argument with span := move argument.span }

@[inherit_doc Argument.mapSpan]
def Channel.mapSpan (move : Span → Span) (channel : Channel) : Channel :=
  { channel with span := move channel.span }

/-- The module with its span and those of its arguments moved. -/
def Module.mapSpans (move : Span → Span) (module : Module) : Module :=
  { module with
    arguments := module.arguments.map (·.mapSpan move), span := move module.span }

/-- The pipeline with all its spans moved. -/
def Pipeline.mapSpans (move : Span → Span) (pipeline : Pipeline) : Pipeline where
  name := pipeline.name
  source := pipeline.source.map (·.mapSpan move)
  modules := pipeline.modules.map (·.mapSpans move)
  sink := pipeline.sink.map (·.mapSpan move)
  span := move pipeline.span

@[simp] theorem Module.labelName_mapSpans (move : Span → Span) (module : Module) :
    (module.mapSpans move).labelName = module.labelName :=
  rfl

@[simp] theorem Lexeme.mapSpan_id : Lexeme.mapSpan id = id :=
  rfl

@[simp] theorem Channel.mapSpan_id : Channel.mapSpan id = id :=
  rfl

@[simp] theorem Argument.mapSpan_id : Argument.mapSpan id = id :=
  rfl

@[simp] theorem Module.mapSpans_id : Module.mapSpans id = id := by
  funext module
  simp [mapSpans]

@[simp] theorem Pipeline.mapSpans_id : Pipeline.mapSpans id = id := by
  funext pipeline
  simp [mapSpans]

/-- Whether a phrase may end in front of the token. -/
def Token.isBoundary : Token → Bool
  | .pipe | .arrow | .endOfInput => true
  | _ => false

theorem Token.isBoundary_of_segment? {token : Token} {text : String}
    (found : token.segment? = some text) : token.isBoundary = false := by
  cases token with
  | word | number => rfl
  | _ => cases found

/-- How the lexemes ahead of one cursor are found ahead of another: their spans are
moved, and the first that stops the transfer gives way to others. -/
structure Transfer where
  move : Span → Span
  move_merge : ∀ left right, move (left.merge right) = (move left).merge (move right)
  stops : Token → Bool
  stops_boundary : ∀ token, stops token = true → token.isBoundary = true
  /-- The lexeme in the place of the one that stops the transfer. -/
  finish : Lexeme
  finish_boundary : finish.token.isBoundary = true
  others : List Lexeme

namespace Transfer

/-- The second lexemes are the first ones as they are transferred. -/
inductive Carries (transfer : Transfer) : List Lexeme → List Lexeme → Prop where
  | finish {lexeme : Lexeme} {rest : List Lexeme} :
      transfer.stops lexeme.token = true →
      Carries transfer (lexeme :: rest) (transfer.finish :: transfer.others)
  | step {lexeme : Lexeme} {lexemes copies : List Lexeme} :
      transfer.stops lexeme.token = false → Carries transfer lexemes copies →
      Carries transfer (lexeme :: lexemes) (lexeme.mapSpan transfer.move :: copies)

/-- The second cursor has ahead of it what the first one has, as it is transferred. -/
def Beside (transfer : Transfer) (first second : Cursor) : Prop :=
  transfer.Carries first.remaining second.remaining

/-- The spans that the cursors passed last correspond as well. -/
structure InStep (transfer : Transfer) (first second : Cursor) : Prop where
  beside : transfer.Beside first second
  before : second.before = transfer.move first.before

variable {transfer : Transfer}

theorem carries_append {lexemes rest : List Lexeme} {last : Lexeme}
    (goesOn : ∀ lexeme ∈ lexemes, transfer.stops lexeme.token = false)
    (stops : transfer.stops last.token = true) :
    transfer.Carries (lexemes ++ last :: rest)
      (lexemes.map (·.mapSpan transfer.move) ++ transfer.finish :: transfer.others) := by
  induction lexemes with
  | nil => exact .finish stops
  | cons lexeme lexemes induction =>
      rw [List.forall_mem_cons] at goesOn
      exact .step goesOn.1 (induction goesOn.2)

theorem Carries.ne_nil {lexemes copies : List Lexeme}
    (carries : transfer.Carries lexemes copies) : lexemes ≠ [] ∧ copies ≠ [] := by
  cases carries <;> exact ⟨List.cons_ne_nil _ _, List.cons_ne_nil _ _⟩

theorem goesOn_of_inner {token : Token} (inner : token.isBoundary = false) :
    transfer.stops token = false := by
  rw [← Bool.not_eq_true]
  intro stops
  rw [transfer.stops_boundary token stops] at inner
  cases inner

/-- The token is there for both cursors or for neither. -/
def Keeps (transfer : Transfer) (token : Token) : Prop :=
  transfer.stops token = false ∧ transfer.finish.token ≠ token

theorem keeps_of_inner {token : Token} (inner : token.isBoundary = false) :
    transfer.Keeps token := by
  refine ⟨goesOn_of_inner inner, ?_⟩
  rintro rfl
  cases inner.symm.trans transfer.finish_boundary

variable {first second : Cursor}

namespace Beside

theorem current_eq (beside : transfer.Beside first second)
    (goesOn : transfer.stops first.token = false) :
    second.current = first.current.mapSpan transfer.move ∧
      transfer.Carries first.ahead second.ahead := by
  obtain ⟨before, current, ahead⟩ := first
  obtain ⟨otherBefore, other, otherAhead⟩ := second
  cases beside with
  | finish stops => cases goesOn.symm.trans stops
  | step _ carries => exact ⟨rfl, carries⟩

theorem token_eq (beside : transfer.Beside first second)
    (goesOn : transfer.stops first.token = false) : second.token = first.token :=
  (congrArg Lexeme.token (beside.current_eq goesOn).1 :)

theorem span_eq (beside : transfer.Beside first second)
    (goesOn : transfer.stops first.token = false) :
    second.span = transfer.move first.span :=
  (congrArg Lexeme.span (beside.current_eq goesOn).1 :)

/-- A token that neither stops the transfer nor comes where it has stopped. -/
theorem token_iff_of_keeps (beside : transfer.Beside first second) {token : Token}
    (keeps : transfer.Keeps token) : second.token = token ↔ first.token = token := by
  cases stopped : transfer.stops first.token with
  | false => rw [beside.token_eq stopped]
  | true =>
      obtain ⟨goesOn, apart⟩ := keeps
      have finish : second.token = transfer.finish.token := by
        obtain ⟨before, current, ahead⟩ := first
        obtain ⟨otherBefore, other, otherAhead⟩ := second
        cases beside with
        | finish => rfl
        | step goesOn => cases goesOn.symm.trans stopped
      constructor
      · intro here
        exact (apart (finish.symm.trans here)).elim
      · rintro rfl
        cases goesOn.symm.trans stopped

/-- The transfer stops at boundaries only, so any other token is there for both. -/
theorem token_iff (beside : transfer.Beside first second) {token : Token}
    (inner : token.isBoundary = false) : second.token = token ↔ first.token = token :=
  beside.token_iff_of_keeps (keeps_of_inner inner)

/-- Both cursors move, since the transfer has not stopped yet. -/
theorem advance (beside : transfer.Beside first second)
    (goesOn : transfer.stops first.token = false) :
    transfer.InStep first.advance second.advance ∧
      first.nextToken = first.advance.token ∧
        second.nextToken = second.advance.token := by
  obtain ⟨same, carries⟩ := beside.current_eq goesOn
  obtain ⟨before, current, ahead⟩ := first
  obtain ⟨otherBefore, other, otherAhead⟩ := second
  cases ahead with
  | nil => exact (carries.ne_nil.1 rfl).elim
  | cons next ahead =>
      cases otherAhead with
      | nil => exact (carries.ne_nil.2 rfl).elim
      | cons otherNext otherAhead =>
          exact ⟨⟨carries, congrArg Lexeme.span same⟩, rfl, rfl⟩

/-- A word with a sign behind it is there for both. -/
theorem opens_iff (beside : transfer.Beside first second) {text : String}
    {sign : Token} (inner : sign.isBoundary = false) :
    second.Opens text sign ↔ first.Opens text sign := by
  unfold Cursor.Opens
  rw [beside.token_iff rfl]
  refine and_congr_right fun word => ?_
  obtain ⟨inStep, firstNext, secondNext⟩ :=
    beside.advance (goesOn_of_inner (word ▸ rfl))
  rw [firstNext, secondNext]
  exact inStep.beside.token_iff inner

theorem advance_two (beside : transfer.Beside first second) {text : String}
    {sign : Token} (inner : sign.isBoundary = false) (opens : first.Opens text sign) :
    transfer.InStep first.advance.advance second.advance.advance := by
  obtain ⟨word, next⟩ := opens
  obtain ⟨inStep, firstNext, -⟩ := beside.advance (goesOn_of_inner (word ▸ rfl))
  rw [firstNext] at next
  exact (inStep.beside.advance (goesOn_of_inner (next ▸ inner))).1

end Beside

end Transfer

namespace Transfer

variable {transfer : Transfer} {first second after : Cursor}

theorem Beside.segment {make : String → Problem} {text : String}
    (beside : transfer.Beside first second)
    (read : first.segment make = .ok (text, after)) :
    ∃ last, second.segment make = .ok (text, last) ∧ transfer.InStep after last := by
  obtain ⟨found, rfl⟩ := Cursor.segment_eq_ok read
  have goesOn : transfer.stops first.token = false :=
    goesOn_of_inner (Token.isBoundary_of_segment? found)
  refine ⟨second.advance, ?_, (beside.advance goesOn).1⟩
  simp [Cursor.segment, beside.token_eq goesOn, found]

theorem InStep.segments {separator : Token} {isSeparator : separator.segment? = none}
    {make : String → Problem} {texts : List String}
    (inner : separator.isBoundary = false) (inStep : transfer.InStep first second)
    (read : first.segments separator isSeparator make = .ok (texts, after)) :
    ∃ last, second.segments separator isSeparator make = .ok (texts, last) ∧
      transfer.InStep after last := by
  fun_induction Cursor.segments separator isSeparator make first
    generalizing second texts after with
  | case1 => cases read
  | case2 => cases read
  | case3 first here text next inside shorter more end₁ tail induction =>
      cases read
      have goesOn : transfer.stops first.token = false := goesOn_of_inner (here ▸ inner)
      obtain ⟨otherNext, otherInside, nextInStep⟩ :=
        (inStep.beside.advance goesOn).1.beside.segment inside
      obtain ⟨last, otherTail, lastInStep⟩ := induction nextInStep tail
      exact ⟨last, Cursor.segments_cons ((inStep.beside.token_iff inner).mpr here)
        otherInside otherTail, lastInStep⟩
  | case4 first elsewhere =>
      cases read
      have otherElsewhere := mt (inStep.beside.token_iff inner).mp elsewhere
      exact ⟨second, Cursor.segments_nil otherElsewhere, inStep⟩

theorem Beside.channelKeyword?_eq (beside : transfer.Beside first second) :
    second.channelKeyword? = first.channelKeyword? := by
  apply Option.ext
  intro keyword
  rw [Cursor.channelKeyword?_eq_some_iff, Cursor.channelKeyword?_eq_some_iff]
  exact beside.opens_iff rfl

theorem Beside.channel {keyword : ChannelKeyword} {found : Channel}
    (beside : transfer.Beside first second)
    (opening : first.channelKeyword? = some keyword)
    (read : first.channel keyword = .ok (found, after)) :
    ∃ last, second.channel keyword = .ok (found.mapSpan transfer.move, last) ∧
      transfer.InStep after last := by
  have opens := Cursor.channelKeyword?_eq_some_iff.mp opening
  have span := beside.span_eq (goesOn_of_inner (opens.1 ▸ rfl))
  obtain ⟨name, cursor₁, more, cursor₂, index, nameRead, moreRead, indexRead, onlyTaps,
    short, rfl⟩ := Cursor.channel_eq_ok.mp read
  obtain ⟨copy₁, nameCopied, inStep₁⟩ :=
    (beside.advance_two rfl opens).beside.segment nameRead
  obtain ⟨copy₂, moreCopied, inStep₂⟩ := inStep₁.segments rfl moreRead
  obtain ⟨last, indexCopied, inStep⟩ := inStep₂.segments rfl indexRead
  refine ⟨last, Cursor.channel_eq_ok.mpr ⟨name, copy₁, more, copy₂, index, nameCopied,
    moreCopied, indexCopied, onlyTaps, short, ?_⟩, inStep⟩
  rw [Channel.mapSpan, transfer.move_merge, span, inStep.before]

theorem Beside.label {found : Option String} (beside : transfer.Beside first second)
    (read : first.label = .ok (found, after)) :
    ∃ last, second.label = .ok (found, last) ∧ transfer.Beside after last := by
  rcases Cursor.label_eq_ok.mp read with
    ⟨text, opens, free, rfl, rfl⟩ | ⟨unlabelled, rfl, rfl⟩
  · refine ⟨second.advance.advance, Cursor.label_eq_ok.mpr (.inl ⟨text, ?_⟩), ?_⟩
    · exact ⟨(beside.opens_iff rfl).mpr opens, free, rfl, rfl⟩
    · exact (beside.advance_two rfl opens).beside
  · refine ⟨second, Cursor.label_eq_ok.mpr (.inr ⟨?_, rfl, rfl⟩), beside⟩
    exact fun text opens => unlabelled text ((beside.opens_iff rfl).mp opens)

theorem Beside.moduleName {name : String} (beside : transfer.Beside first second)
    (read : first.moduleName = .ok (name, after)) :
    ∃ last, second.moduleName = .ok (name, last) ∧ transfer.InStep after last := by
  unfold Cursor.moduleName at read
  split at read
  · rename_i text word
    cases read
    have goesOn : transfer.stops first.token = false := goesOn_of_inner (word ▸ rfl)
    refine ⟨second.advance, ?_, (beside.advance goesOn).1⟩
    simp [Cursor.moduleName, beside.token_eq goesOn, word]
  · cases read

theorem Beside.argument {name : String} {found : Argument}
    (beside : transfer.Beside first second) (flag : first.token = .flag name)
    (read : first.argument name = .ok (found, after)) :
    ∃ last, second.argument name = .ok (found.mapSpan transfer.move, last) ∧
      transfer.InStep after last := by
  obtain ⟨named, equals, value, literal, rfl, rfl⟩ := Cursor.argument_eq_ok.mp read
  have onFlag : transfer.stops first.token = false := goesOn_of_inner (flag ▸ rfl)
  have atEquals := (beside.advance onFlag).1.beside
  have atValue := (atEquals.advance (goesOn_of_inner (equals ▸ rfl))).1.beside
  have inStep := (atValue.advance (goesOn_of_inner (literal ▸ rfl))).1
  refine ⟨second.advance.advance.advance, Cursor.argument_eq_ok.mpr ⟨named, ?_, value,
    ?_, rfl, ?_⟩, inStep⟩
  · exact (atEquals.token_iff rfl).mpr equals
  · exact (atValue.token_iff rfl).mpr literal
  · rw [Argument.mapSpan, transfer.move_merge, beside.span_eq onFlag, inStep.before]

theorem InStep.arguments {module : String} {seen : List String} {found : List Argument}
    (inStep : transfer.InStep first second)
    (read : first.arguments module seen = .ok (found, after)) :
    ∃ last, second.arguments module seen =
        .ok (found.map (·.mapSpan transfer.move), last) ∧
      transfer.InStep after last := by
  fun_induction Cursor.arguments module seen first
    generalizing second found after with
  | case1 => cases read
  | case2 => cases read
  | case3 => cases read
  | case4 seen first name flag argument next inside fresh shorter more end₁ tail
      induction =>
      cases read
      obtain ⟨otherNext, otherInside, nextInStep⟩ := inStep.beside.argument flag inside
      obtain ⟨last, otherTail, lastInStep⟩ := induction nextInStep tail
      exact ⟨last, Cursor.arguments_cons ((inStep.beside.token_iff rfl).mpr flag)
        otherInside fresh otherTail, lastInStep⟩
  | case5 seen first noFlag =>
      cases read
      refine ⟨second, Cursor.arguments_nil fun name flag => ?_, inStep⟩
      exact noFlag name ((inStep.beside.token_iff rfl).mp flag)

theorem Beside.module {found : Module} (beside : transfer.Beside first second)
    (read : first.module = .ok (found, after)) :
    ∃ last, second.module = .ok (found.mapSpans transfer.move, last) ∧
      transfer.InStep after last := by
  obtain ⟨text, word⟩ := Cursor.exists_word_of_module read
  have goesOn : transfer.stops first.token = false := goesOn_of_inner (word ▸ rfl)
  obtain ⟨label, cursor₁, name, cursor₂, arguments, labelRead, nameRead, argumentsRead,
    rfl⟩ := Cursor.module_eq_ok read
  obtain ⟨copy₁, labelCopied, beside₁⟩ := beside.label labelRead
  obtain ⟨copy₂, nameCopied, inStep₂⟩ := beside₁.moduleName nameRead
  obtain ⟨last, argumentsCopied, inStep⟩ := inStep₂.arguments argumentsRead
  refine ⟨last, ?_, inStep⟩
  simp only [Cursor.module, labelCopied, nameCopied, argumentsCopied, bind, Except.bind,
    Module.mapSpans, transfer.move_merge, beside.span_eq goesOn, inStep.before]

/-- Where the first cursor has read its modules, the second one may go on to others. -/
theorem InStep.modulesAfterPipe {found : List Module} (goesOn : transfer.stops .pipe = false)
    (inStep : transfer.InStep first second)
    (read : first.modulesAfterPipe = .ok (found, after)) :
    ∃ last, second.modulesAfterPipe =
        Prod.map (found.map (·.mapSpans transfer.move) ++ ·) id <$>
          last.modulesAfterPipe ∧
      transfer.InStep after last := by
  fun_induction Cursor.modulesAfterPipe first generalizing second found after with
  | case1 => cases read
  | case2 => cases read
  | case3 => cases read
  | case4 first pipe proper module next inside shorter more end₁ tail induction =>
      cases read
      have onPipe : transfer.stops first.token = false := pipe ▸ goesOn
      obtain ⟨otherNext, otherInside, nextInStep⟩ :=
        (inStep.beside.advance onPipe).1.beside.module inside
      obtain ⟨last, otherTail, lastInStep⟩ := induction nextInStep tail
      have otherPipe : second.token = .pipe := (inStep.beside.token_eq onPipe).trans pipe
      refine ⟨last, ?_, lastInStep⟩
      rw [Cursor.modulesAfterPipe_of_module otherPipe otherInside, otherTail,
        Functor.map_map]
      rfl
  | case5 first elsewhere =>
      cases read
      refine ⟨second, ?_, inStep⟩
      cases second.modulesAfterPipe <;> rfl

theorem Beside.modules {found : List Module} (goesOn : transfer.stops .pipe = false)
    (beside : transfer.Beside first second) (read : first.modules = .ok (found, after)) :
    ∃ last, second.modules =
        Prod.map (found.map (·.mapSpans transfer.move) ++ ·) id <$>
          last.modulesAfterPipe ∧
      transfer.InStep after last := by
  obtain ⟨module, next, more, moduleRead, moreRead, rfl⟩ := Cursor.modules_eq_ok read
  obtain ⟨otherNext, moduleCopied, nextInStep⟩ := beside.module moduleRead
  obtain ⟨last, moreCopied, lastInStep⟩ := nextInStep.modulesAfterPipe goesOn moreRead
  refine ⟨last, ?_, lastInStep⟩
  rw [Cursor.modules_of_module moduleCopied, moreCopied, Functor.map_map]
  rfl

theorem Beside.definitionName {name : Option String}
    (beside : transfer.Beside first second)
    (read : first.definitionName = (name, after)) :
    ∃ last, second.definitionName = (name, last) ∧ transfer.Beside after last := by
  rcases Cursor.definitionName_eq.mp read with
    ⟨text, opens, rfl, rfl⟩ | ⟨unnamed, rfl, rfl⟩
  · refine ⟨second.advance.advance, Cursor.definitionName_eq.mpr (.inl ⟨text, ?_⟩), ?_⟩
    · exact ⟨(beside.opens_iff rfl).mpr opens, rfl, rfl⟩
    · exact (beside.advance_two rfl opens).beside
  · refine ⟨second, Cursor.definitionName_eq.mpr (.inr ⟨?_, rfl, rfl⟩), beside⟩
    exact fun text opens => unnamed text ((beside.opens_iff rfl).mp opens)

theorem Beside.source {found : Option Channel} (goesOn : transfer.stops .arrow = false)
    (beside : transfer.Beside first second) (read : first.source = .ok (found, after)) :
    ∃ last, second.source = .ok (found.map (·.mapSpan transfer.move), last) ∧
      transfer.Beside after last := by
  rcases Cursor.source_eq_ok.mp read with
    ⟨closed, rfl, rfl⟩ | ⟨keyword, channel, next, opening, channelRead, arrow, rfl, rfl⟩
  · rw [← beside.channelKeyword?_eq] at closed
    exact ⟨second, Cursor.source_eq_ok.mpr (.inl ⟨closed, rfl, rfl⟩), beside⟩
  · obtain ⟨otherNext, channelCopied, nextInStep⟩ := beside.channel opening channelRead
    have onArrow : transfer.stops next.token = false := arrow ▸ goesOn
    rw [← beside.channelKeyword?_eq] at opening
    refine ⟨otherNext.advance, Cursor.source_eq_ok.mpr (.inr ⟨keyword, _, otherNext,
      opening, channelCopied, ?_, rfl, rfl⟩), (nextInStep.beside.advance onArrow).1.beside⟩
    exact (nextInStep.beside.token_eq onArrow).trans arrow

theorem InStep.sink {found : Option Channel} (keeps : transfer.Keeps .arrow)
    (inStep : transfer.InStep first second) (read : first.sink = .ok (found, after)) :
    ∃ last, second.sink = .ok (found.map (·.mapSpan transfer.move), last) ∧
      transfer.InStep after last := by
  have arrow_iff := inStep.beside.token_iff_of_keeps keeps
  rcases Cursor.sink_eq_ok.mp read with
    ⟨noArrow, rfl, rfl⟩ | ⟨arrow, keyword, channel, opening, channelRead, noTap, rfl⟩
  · refine ⟨second, Cursor.sink_eq_ok.mpr (.inl ⟨?_, rfl, rfl⟩), inStep⟩
    exact mt arrow_iff.mp noArrow
  · have atChannel := (inStep.beside.advance (arrow ▸ keeps.1)).1.beside
    obtain ⟨last, channelCopied, lastInStep⟩ := atChannel.channel opening channelRead
    rw [← atChannel.channelKeyword?_eq] at opening
    exact ⟨last, Cursor.sink_eq_ok.mpr (.inr ⟨arrow_iff.mpr arrow, keyword, _, opening,
      channelCopied, noTap, rfl⟩), lastInStep⟩

end Transfer

end Tapline
