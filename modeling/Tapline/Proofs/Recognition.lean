import Tapline.Proofs.Recognition.Module

/-!
# The parser and the grammar

The parser reads the definitions of the grammar and nothing else, and the form
of what it reads is the only one that the tokens have.
-/

namespace Tapline

namespace Cursor

theorem definitionName_sound {cursor after : Cursor} {tokens : List Token}
    {found : Option String} (faces : cursor.Faces tokens)
    (read : cursor.definitionName = (found, after)) :
    Passes (Grammar.Optional (Grammar.Before .equals Grammar.Word)) tokens found
      after := by
  rcases definitionName_eq.mp read with ⟨text, opens, rfl, rfl⟩ | ⟨-, rfl, rfl⟩
  · obtain ⟨rest, rfl⟩ := (faces.opens_iff (by simp)).mp opens
    exact ⟨[.word text] ++ [.equals], rest, rfl, .some (.intro (.intro text)),
      faces.advance.advance⟩
  · exact ⟨[], tokens, rfl, .none, faces⟩

theorem definitionName_complete {used rest : List Token} {name : Option String}
    (phrase : Grammar.Optional (Grammar.Before .equals Grammar.Word) used name)
    (stops : ∃ text more, rest = .word text :: more ∧
      more.head?.getD .endOfInput ≠ .equals)
    {cursor : Cursor} (faces : cursor.Faces (used ++ rest)) :
    ∃ after, cursor.definitionName = (name, after) ∧ after.Faces rest := by
  cases phrase with
  | none =>
      obtain ⟨text, more, rfl, unnamed⟩ := stops
      refine ⟨cursor, definitionName_eq.mpr (.inr ⟨?_, rfl, rfl⟩), faces⟩
      rintro other ⟨-, next⟩
      rw [Faces.nextToken faces] at next
      exact unnamed next
  | some phrase =>
      obtain ⟨⟨⟩⟩ := phrase
      refine ⟨cursor.advance.advance, definitionName_eq.mpr (.inl ⟨_, ?_, rfl, rfl⟩),
        faces.advance.advance⟩
      exact (faces.opens_iff (by simp)).mpr ⟨_, rfl⟩

theorem source_sound {cursor after : Cursor} {tokens : List Token}
    {found : Option Channel} (faces : cursor.Faces tokens)
    (read : cursor.source = .ok (found, after)) :
    Passes (Grammar.Optional (Grammar.Before .arrow Grammar.Channel)) tokens
      (found.map Channel.form) after := by
  rcases source_eq_ok.mp read with
    ⟨-, rfl, rfl⟩ | ⟨keyword, channel, cursor₁, opening, channelRead, arrow, rfl, rfl⟩
  · exact ⟨[], tokens, rfl, .none, faces⟩
  · obtain ⟨channelTokens, _, rfl, channelPhrase, faces₁⟩ :=
      channel_sound faces opening channelRead
    obtain ⟨rest, rfl, facesRest⟩ := faces₁.eq_cons arrow (by simp)
    exact ⟨channelTokens ++ [.arrow], rest, by simp, .some (.intro channelPhrase),
      facesRest⟩

theorem source_complete {used rest : List Token} {form : Option Channel.Form}
    (phrase :
      Grammar.Optional (Grammar.Before .arrow Grammar.Channel) used form)
    (stops : ∃ text more, rest = .word text :: more ∧
      (more.head?.getD .endOfInput = .colon →
        ∀ keyword : ChannelKeyword, text ≠ keyword.word))
    {cursor : Cursor} (faces : cursor.Faces (used ++ rest)) :
    ∃ found after, cursor.source = .ok (found, after) ∧
      found.map Channel.form = form ∧ after.Faces rest := by
  cases phrase with
  | none =>
      obtain ⟨text, more, rfl, free⟩ := stops
      have closed : cursor.channelKeyword? = none := by
        rw [Option.eq_none_iff_forall_ne_some]
        intro keyword opening
        obtain ⟨others, equality⟩ := (channelKeyword?_eq_some faces).mp opening
        simp only [List.nil_append, List.cons.injEq, Token.word.injEq] at equality
        obtain ⟨rfl, rfl⟩ := equality
        exact free rfl keyword rfl
      exact ⟨none, cursor, source_eq_ok.mpr (.inl ⟨closed, rfl, rfl⟩), rfl, faces⟩
  | some phrase =>
      cases phrase with
      | @intro channelTokens _ channelPhrase =>
          rw [List.append_assoc] at faces
          obtain ⟨keyword, found, cursor₁, opening, channelRead, same, faces₁⟩ :=
            channel_complete channelPhrase (by simp) faces
          have arrow : cursor₁.token = .arrow := faces₁.token_cons
          exact ⟨some found, cursor₁.advance, source_eq_ok.mpr (.inr ⟨keyword, found,
            cursor₁, opening, channelRead, arrow, rfl, rfl⟩), by simp [same],
            faces₁.advance⟩

theorem sink_sound {cursor after : Cursor} {tokens : List Token}
    {found : Option Channel} (faces : cursor.Faces tokens)
    (read : cursor.sink = .ok (found, after)) :
    Passes (Grammar.Optional (Grammar.Behind .arrow Grammar.Channel)) tokens
        (found.map Channel.form) after ∧
      ∀ channel ∈ found, channel.kind.isTap = false := by
  rcases sink_eq_ok.mp read with
    ⟨-, rfl, rfl⟩ | ⟨arrow, keyword, channel, opening, channelRead, noTap, rfl⟩
  · exact ⟨⟨[], tokens, rfl, .none, faces⟩, by simp⟩
  · obtain ⟨later, rfl, facesLater⟩ := faces.eq_cons arrow (by simp)
    obtain ⟨channelTokens, rest, rfl, channelPhrase, facesRest⟩ :=
      channel_sound facesLater opening channelRead
    exact ⟨⟨.arrow :: channelTokens, rest, rfl, .some (.intro channelPhrase),
      facesRest⟩, by simpa using noTap⟩

theorem sink_complete {used : List Token} {form : Option Channel.Form}
    (phrase :
      Grammar.Optional (Grammar.Behind .arrow Grammar.Channel) used form)
    (noTap : ∀ channel ∈ form, channel.kind.isTap = false)
    {cursor : Cursor} (faces : cursor.Faces used) :
    ∃ found after, cursor.sink = .ok (found, after) ∧
      found.map Channel.form = form ∧ after.Faces [] := by
  cases phrase with
  | none =>
      have atEnd : cursor.token = .endOfInput := faces.token
      exact ⟨none, cursor, sink_eq_ok.mpr (.inl ⟨by simp [atEnd], rfl, rfl⟩), rfl, faces⟩
  | @some _ value phrase =>
      cases phrase with
      | @intro channelTokens _ channelPhrase =>
          have here : cursor.token = .arrow := faces.token_cons
          have facesChannel : cursor.advance.Faces (channelTokens ++ []) := by
            simpa using faces.advance
          obtain ⟨keyword, found, after, opening, channelRead, same, facesAfter⟩ :=
            channel_complete channelPhrase (by simp) facesChannel
          have allowed : found.kind.isTap = false := by
            have kind : found.kind = value.kind := by
              rw [← same]
              rfl
            rw [kind]
            exact noTap value rfl
          exact ⟨some found, after, sink_eq_ok.mpr (.inr ⟨here, keyword, found, opening,
            channelRead, allowed, rfl⟩), by simp [same], facesAfter⟩

end Cursor

/-- Every label is new and none is in `seen`. -/
theorem firstRepeatedLabel?_eq_none {seen : List String} {modules : List Module} :
    firstRepeatedLabel? seen modules = none ↔
      (modules.map Module.labelName).Nodup ∧
        ∀ module ∈ modules, module.labelName ∉ seen := by
  induction modules generalizing seen with
  | nil => simp [firstRepeatedLabel?]
  | cons module modules induction =>
      by_cases repeated : module.labelName ∈ seen
      · simp [firstRepeatedLabel?, repeated]
      · rw [firstRepeatedLabel?, if_neg repeated, induction]
        simp only [List.map_cons, List.nodup_cons, List.mem_map, List.mem_cons,
          not_or, not_exists, not_and, forall_eq_or_imp, repeated,
          not_false_eq_true, true_and]
        constructor
        · rintro ⟨distinct, unseen⟩
          exact ⟨⟨fun other member => (unseen other member).1, distinct⟩,
            fun other member => (unseen other member).2⟩
        · rintro ⟨⟨fresh, distinct⟩, unseen⟩
          exact ⟨distinct, fun other member =>
            ⟨fresh other member, unseen other member⟩⟩

namespace Pipeline

/-- Once everything is read, only the labels can be wrong. -/
theorem ofCursor_of_read {start cursor₁ cursor₂ cursor₃ cursor₄ : Cursor}
    {name : Option String} {source sink : Option Channel} {modules : List Module}
    (nameRead : start.definitionName = (name, cursor₁))
    (sourceRead : cursor₁.source = .ok (source, cursor₂))
    (modulesRead : cursor₂.modules = .ok (modules, cursor₃))
    (sinkRead : cursor₃.sink = .ok (sink, cursor₄))
    (atEnd : cursor₄.token = .endOfInput) :
    ofCursor start =
      match firstRepeatedLabel? [] modules with
      | some module => .error ⟨.duplicateLabel module.labelName, module.span⟩
      | none => .ok ⟨name, source, modules, sink, start.span.merge cursor₄.before⟩ := by
  cases repeated : firstRepeatedLabel? [] modules <;>
    simp [ofCursor, nameRead, sourceRead, modulesRead, sinkRead, atEnd, repeated, bind,
      Except.bind]

theorem ofCursor_eq_ok {start : Cursor} {found : Pipeline} :
    ofCursor start = .ok found ↔
      ∃ name cursor₁ source cursor₂ modules cursor₃ sink cursor₄,
        start.definitionName = (name, cursor₁) ∧
          cursor₁.source = .ok (source, cursor₂) ∧
          cursor₂.modules = .ok (modules, cursor₃) ∧
          cursor₃.sink = .ok (sink, cursor₄) ∧
          cursor₄.token = .endOfInput ∧
          firstRepeatedLabel? [] modules = none ∧
          found = ⟨name, source, modules, sink, start.span.merge cursor₄.before⟩ := by
  constructor
  · simp only [ofCursor, bind_eq_ok, Prod.exists]
    rintro ⟨source, cursor₂, sourceRead, modules, cursor₃, modulesRead, sink,
      cursor₄, sinkRead, read⟩
    split at read
    · rename_i atEnd
      split at read
      · simp at read
      · rename_i distinct
        simp only [Except.ok.injEq] at read
        exact ⟨_, _, source, cursor₂, modules, cursor₃, sink, cursor₄, rfl,
          sourceRead, modulesRead, sinkRead, atEnd, distinct, read.symm⟩
    · simp at read
  · rintro ⟨name, cursor₁, source, cursor₂, modules, cursor₃, sink, cursor₄,
      nameRead, sourceRead, modulesRead, sinkRead, atEnd, distinct, rfl⟩
    rw [ofCursor_of_read nameRead sourceRead modulesRead sinkRead atEnd, distinct]

theorem ofCursor_sound {start : Cursor} {tokens : List Token} {found : Pipeline}
    (faces : start.Faces tokens) (read : ofCursor start = .ok found) :
    Grammar.Definition tokens found.form := by
  obtain ⟨name, cursor₁, source, cursor₂, modules, cursor₃, sink, cursor₄,
    nameRead, sourceRead, modulesRead, sinkRead, atEnd, distinct, rfl⟩ :=
    ofCursor_eq_ok.mp read
  obtain ⟨nameTokens, _, rfl, namePhrase, faces₁⟩ :=
    Cursor.definitionName_sound faces nameRead
  obtain ⟨sourceTokens, _, rfl, sourcePhrase, faces₂⟩ :=
    Cursor.source_sound faces₁ sourceRead
  obtain ⟨first, more, firstTokens, moreTokens, _, rfl, rfl, firstPhrase,
    morePhrase, faces₃⟩ := Cursor.modules_sound faces₂ modulesRead
  obtain ⟨⟨sinkTokens, rest, rfl, sinkPhrase, faces₄⟩, noTap⟩ :=
    Cursor.sink_sound faces₃ sinkRead
  obtain rfl := faces₄.eq_nil atEnd
  have noTapForm : ∀ channel ∈ sink.map Channel.form, ∀ target,
      channel.kind ≠ .tap target := by
    intro form member target tap
    obtain ⟨channel, inside, rfl⟩ := Option.map_eq_some_iff.mp member
    have silent := noTap channel inside
    rw [show channel.kind = .tap target from tap] at silent
    simp [ChannelKind.isTap, ChannelKind.tapped?] at silent
  have labels :
      ((first.meaning :: more.map Module.meaning).map
        Module.Meaning.labelName).Nodup := by
    simpa [Function.comp_def] using (firstRepeatedLabel?_eq_none.mp distinct).1
  simpa [form] using Grammar.Definition.intro namePhrase sourcePhrase firstPhrase
    morePhrase sinkPhrase noTapForm labels

theorem ofCursor_complete {start : Cursor} {tokens : List Token}
    {form : Pipeline.Form} (phrase : Grammar.Definition tokens form)
    (faces : start.Faces tokens) :
    ∃ found, ofCursor start = .ok found ∧ found.form = form := by
  cases phrase with
  | @intro name source sink first more nameTokens sourceTokens firstTokens
      moreTokens sinkTokens namePhrase sourcePhrase firstPhrase morePhrase
      sinkPhrase noTap labels =>
      simp only [List.append_assoc] at faces
      have boundary := Grammar.boundary_optional_arrow sinkPhrase
      have sinkStops : sinkTokens.head?.getD .endOfInput ≠ .pipe := by
        cases sinkPhrase with
        | none => simp
        | some behind =>
            cases behind
            simp
      obtain ⟨text, later, opening, unnamed, free⟩ :=
        firstPhrase.opening (Grammar.boundary_star_pipe morePhrase boundary)
      have bodyOpening : ∃ text later,
          sourceTokens ++ (firstTokens ++ (moreTokens ++ sinkTokens)) =
              .word text :: later ∧
            later.head?.getD .endOfInput ≠ .equals := by
        cases sourcePhrase with
        | none => exact ⟨text, later, opening, unnamed⟩
        | some before =>
            obtain ⟨⟨⟩⟩ := before
            exact ⟨_, _, rfl, by simp⟩
      obtain ⟨cursor₁, nameRead, faces₁⟩ :=
        Cursor.definitionName_complete namePhrase bodyOpening faces
      obtain ⟨foundSource, cursor₂, sourceRead, sameSource, faces₂⟩ :=
        Cursor.source_complete sourcePhrase ⟨text, later, opening, free⟩ faces₁
      obtain ⟨modules, cursor₃, modulesRead, sameModules, faces₃⟩ :=
        Cursor.modules_complete firstPhrase morePhrase boundary sinkStops faces₂
      have silent : ∀ channel ∈ sink, channel.kind.isTap = false := by
        intro channel member
        cases kind : channel.kind with
        | tap target => exact (noTap channel member target kind).elim
        | _ => rfl
      obtain ⟨foundSink, cursor₄, sinkRead, sameSink, faces₄⟩ :=
        Cursor.sink_complete sinkPhrase silent faces₃
      have distinct : firstRepeatedLabel? [] modules = none := by
        refine firstRepeatedLabel?_eq_none.mpr ⟨?_, by simp⟩
        rw [← sameModules] at labels
        simpa [Function.comp_def] using labels
      refine ⟨_, ofCursor_eq_ok.mpr ⟨name, cursor₁, foundSource, cursor₂, modules,
        cursor₃, foundSink, cursor₄, nameRead, sourceRead, modulesRead, sinkRead,
        faces₄.token, distinct, rfl⟩, ?_⟩
      simp [Pipeline.form, sameSource, sameModules, sameSink]

theorem ofLexemes_stream (lexemes : List Lexeme) :
    ofLexemes .stream lexemes = ofCursor (.ofLexemes lexemes) := by
  simp only [ofLexemes]
  cases ofCursor (.ofLexemes lexemes) <;> rfl

theorem asJob_eq_ok {pipeline found : Pipeline} :
    pipeline.asJob = .ok found ↔
      found = pipeline ∧ pipeline.channels = [] ∧ pipeline.modules.length ≤ 1 := by
  unfold asJob
  split
  · rename_i channel others channels
    simp [channels]
  · rename_i first extra others channels modules
    simp [modules]
  · rename_i channels few
    have short : pipeline.modules.length ≤ 1 := by
      cases modules : pipeline.modules with
      | nil => simp
      | cons first others =>
          cases others with
          | nil => simp
          | cons extra others => exact (few first extra others modules).elim
    simp [channels, short, eq_comm]

/-- A job is a stream without channels and with few modules. -/
theorem ofLexemes_job_eq_ok {lexemes : List Lexeme} {found : Pipeline} :
    ofLexemes .job lexemes = .ok found ↔
      ofLexemes .stream lexemes = .ok found ∧ found.channels = [] ∧
        found.modules.length ≤ 1 := by
  simp only [ofLexemes, bind_eq_ok]
  constructor
  · rintro ⟨pipeline, read, job⟩
    obtain ⟨rfl, channels, short⟩ := asJob_eq_ok.mp job
    exact ⟨⟨found, read, rfl⟩, channels, short⟩
  · rintro ⟨⟨pipeline, read, same⟩, channels, short⟩
    cases same
    exact ⟨found, read, asJob_eq_ok.mpr ⟨rfl, channels, short⟩⟩

end Pipeline

namespace Grammar

theorem Definition.unique {tokens : List Token} {left right : Pipeline.Form}
    (proper : .endOfInput ∉ tokens) (leftPhrase : Definition tokens left)
    (rightPhrase : Definition tokens right) : left = right := by
  let lexemes : List Lexeme := tokens.map (⟨·, .origin⟩)
  have faces : (Cursor.ofLexemes (lexemes ++ [⟨.endOfInput, .origin⟩])).Faces
      tokens := by
    have properLexemes : ∀ lexeme ∈ lexemes, lexeme.token ≠ .endOfInput := by
      intro lexeme member atEnd
      obtain ⟨token, inside, rfl⟩ := List.mem_map.mp member
      exact proper (atEnd ▸ inside)
    simpa [lexemes, Function.comp_def] using Cursor.faces_ofLexemes .origin properLexemes
  obtain ⟨found, read, same⟩ := Pipeline.ofCursor_complete leftPhrase faces
  obtain ⟨other, again, sameOther⟩ := Pipeline.ofCursor_complete rightPhrase faces
  rw [read] at again
  cases again
  exact same.symm.trans sameOther

theorem Definition.modules_ne_nil {tokens : List Token} {form : Pipeline.Form}
    (phrase : Definition tokens form) : form.modules ≠ [] := by
  cases phrase
  simp

end Grammar

namespace Pipeline

/-- The parser reads the definitions of the grammar and nothing else.  The form
of what it reads is the only one the tokens have.  Jobs are the definitions
without channels that have exactly one module. -/
theorem ofLexemes_iff_definition (lexemes : List Lexeme) (finish : Span)
    (proper : ∀ lexeme ∈ lexemes, lexeme.token ≠ .endOfInput) :
    (∀ form,
      (∃ found,
        ofLexemes .stream (lexemes ++ [⟨.endOfInput, finish⟩]) = .ok found ∧
          found.form = form) ↔
        Grammar.Definition (lexemes.map Lexeme.token) form) ∧
    (∀ left right,
      Grammar.Definition (lexemes.map Lexeme.token) left →
        Grammar.Definition (lexemes.map Lexeme.token) right → left = right) ∧
    (∀ found,
      ofLexemes .job (lexemes ++ [⟨.endOfInput, finish⟩]) = .ok found ↔
        ofLexemes .stream (lexemes ++ [⟨.endOfInput, finish⟩]) = .ok found ∧
          found.channels = [] ∧ found.modules.length = 1) := by
  have faces := Cursor.faces_ofLexemes finish proper
  refine ⟨?_, ?_, ?_⟩
  · intro form
    rw [ofLexemes_stream]
    constructor
    · rintro ⟨found, read, rfl⟩
      exact ofCursor_sound faces read
    · intro phrase
      exact ofCursor_complete phrase faces
  · intro left right
    exact Grammar.Definition.unique faces.2
  · intro found
    rw [ofLexemes_job_eq_ok, ofLexemes_stream]
    refine and_congr_right fun read => and_congr_right fun _ => ?_
    have nonempty : found.modules ≠ [] := by
      simpa [form] using (ofCursor_sound faces read).modules_ne_nil
    have positive := List.length_pos_iff.mpr nonempty
    omega

/-- A definition with every part of the grammar. -/
theorem ofLexemes_iff_definition_audit :
    let tokens : List Token :=
      [.word "audit", .equals, .word "tap", .colon, .word "Job", .colon,
        .word "main", .dot, .number "2", .arrow, .word "t", .colon, .word "filter",
        .flag "expr", .equals, .literal "x", .pipe, .word "log", .arrow,
        .word "queue", .colon, .word "out"]
    (∀ lexeme ∈ tokens.map (⟨·, Span.origin⟩ : Token → Lexeme),
        lexeme.token ≠ .endOfInput) ∧
      Grammar.Definition tokens
        ⟨some "audit", some ⟨.tap .job, ["Job", "main"], ["2"]⟩,
          [⟨"filter", some "t", [("expr", "x")]⟩, ⟨"log", none, []⟩],
          some ⟨.queue, ["out"], []⟩⟩ := by
  intro tokens
  let lexemes := tokens.map (⟨·, Span.origin⟩ : Token → Lexeme)
  have proper : ∀ lexeme ∈ lexemes, lexeme.token ≠ .endOfInput := by decide
  refine ⟨proper, ?_⟩
  exact ((ofLexemes_iff_definition lexemes .origin proper).1 _).mp
    ⟨⟨some "audit", some ⟨.tap .job, ["Job", "main"], ["2"], .origin⟩,
      [⟨"filter", some "t", [⟨"expr", "x", .origin⟩], .origin⟩,
        ⟨"log", none, [], .origin⟩],
      some ⟨.queue, ["out"], [], .origin⟩, .origin⟩,
      eq_ok_of_toOption (by decide +kernel), rfl⟩

end Pipeline

end Tapline
