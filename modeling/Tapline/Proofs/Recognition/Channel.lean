import Tapline.Proofs.Grammar
import Tapline.Proofs.Inversion

/-!
# Reading channels

A cursor faces the tokens that are left in front of the end of the input.  Each
reader of the parser is compared with its production twice.  A reader that
succeeds has passed over a phrase of the grammar, and in front of a phrase that
nothing continues it succeeds with the form of that phrase.  Here this is shown
for segments and channels.
-/

namespace Tapline

namespace Cursor

/-- The tokens in front of the end of the input, with the cursor on the first. -/
def Faces (cursor : Cursor) (tokens : List Token) : Prop :=
  (cursor.current :: cursor.ahead).map Lexeme.token = tokens ++ [.endOfInput] ∧
    .endOfInput ∉ tokens

/-- The cursor of `tokens` has been brought to `after`, past a phrase that
stands for `value`. -/
def Passes (phrase : List Token → α → Prop) (tokens : List Token) (value : α)
    (after : Cursor) : Prop :=
  ∃ used rest, tokens = used ++ rest ∧ phrase used value ∧ after.Faces rest

namespace Faces

theorem token {cursor : Cursor} {tokens : List Token}
    (faces : cursor.Faces tokens) :
    cursor.token = tokens.head?.getD .endOfInput := by
  have equality := faces.1
  cases tokens with
  | nil =>
      simp only [List.map_cons, List.nil_append, List.cons.injEq] at equality
      exact equality.1
  | cons first rest =>
      simp only [List.map_cons, List.cons_append, List.cons.injEq] at equality
      exact equality.1

theorem token_cons {cursor : Cursor} {first : Token} {rest : List Token}
    (faces : cursor.Faces (first :: rest)) : cursor.token = first :=
  faces.token

theorem advance {cursor : Cursor} {first : Token} {rest : List Token}
    (faces : cursor.Faces (first :: rest)) : cursor.advance.Faces rest := by
  obtain ⟨equality, proper⟩ := faces
  have properRest : .endOfInput ∉ rest := fun member =>
    proper (List.mem_cons_of_mem _ member)
  cases ahead : cursor.ahead with
  | nil => simp [ahead] at equality
  | cons next later =>
      simp only [ahead, List.map_cons, List.cons_append, List.cons.injEq] at equality
      refine ⟨?_, properRest⟩
      simpa [Cursor.advance, ahead] using equality.2

theorem nextToken {cursor : Cursor} {first : Token} {rest : List Token}
    (faces : cursor.Faces (first :: rest)) :
    cursor.nextToken = rest.head?.getD .endOfInput := by
  rw [← faces.advance.token]
  have equality := faces.1
  cases ahead : cursor.ahead with
  | nil => simp [ahead] at equality
  | cons next later =>
      simp [Cursor.nextToken, Cursor.advance, Cursor.token, ahead]

/-- A cursor on anything but the end of the input faces that token first. -/
theorem eq_cons {cursor : Cursor} {tokens : List Token} {first : Token}
    (faces : cursor.Faces tokens) (here : cursor.token = first)
    (proper : first ≠ .endOfInput) :
    ∃ rest, tokens = first :: rest ∧ cursor.advance.Faces rest := by
  cases tokens with
  | nil => exact (proper (here.symm.trans faces.token)).elim
  | cons head rest =>
      have same : head = first := faces.token_cons.symm.trans here
      subst same
      exact ⟨rest, rfl, faces.advance⟩

theorem opens_iff {cursor : Cursor} {tokens : List Token} {text : String}
    {sign : Token} (faces : cursor.Faces tokens) (proper : sign ≠ .endOfInput) :
    cursor.Opens text sign ↔ ∃ rest, tokens = .word text :: sign :: rest := by
  constructor
  · rintro ⟨here, next⟩
    obtain ⟨later, rfl, facesLater⟩ := faces.eq_cons here (by simp)
    have second : cursor.advance.token = sign := by
      rw [facesLater.token, ← faces.nextToken, next]
    obtain ⟨rest, rfl, -⟩ := facesLater.eq_cons second proper
    exact ⟨rest, rfl⟩
  · rintro ⟨rest, rfl⟩
    exact ⟨faces.token_cons, faces.nextToken⟩

theorem eq_nil {cursor : Cursor} {tokens : List Token}
    (faces : cursor.Faces tokens) (here : cursor.token = .endOfInput) :
    tokens = [] := by
  cases tokens with
  | nil => rfl
  | cons head rest =>
      have same : head = .endOfInput := faces.token_cons.symm.trans here
      exact (faces.2 (by simp [same])).elim

end Faces

theorem faces_ofLexemes {lexemes : List Lexeme} (finish : Span)
    (proper : ∀ lexeme ∈ lexemes, lexeme.token ≠ .endOfInput) :
    (ofLexemes (lexemes ++ [⟨.endOfInput, finish⟩])).Faces
      (lexemes.map Lexeme.token) := by
  have absent : .endOfInput ∉ lexemes.map Lexeme.token := by
    intro member
    obtain ⟨lexeme, inside, equality⟩ := List.mem_map.mp member
    exact proper lexeme inside equality
  refine ⟨?_, absent⟩
  cases lexemes with
  | nil => rfl
  | cons first rest => simp [ofLexemes]

end Cursor

theorem Grammar.segment_iff {tokens : List Token} {text : String} :
    Grammar.Segment tokens text ↔
      ∃ token, tokens = [token] ∧ token.segment? = some text := by
  constructor
  · intro phrase
    cases phrase with
    | word => exact ⟨_, rfl, rfl⟩
    | number => exact ⟨_, rfl, rfl⟩
  · rintro ⟨token, rfl, found⟩
    cases token <;> simp only [Token.segment?, Option.some.injEq, reduceCtorEq] at found
    · subst found
      exact .word _
    · subst found
      exact .number _

namespace Cursor

theorem segment_sound {make : String → Problem} {cursor after : Cursor}
    {tokens : List Token} {text : String} (faces : cursor.Faces tokens)
    (read : cursor.segment make = .ok (text, after)) :
    Passes Grammar.Segment tokens text after := by
  obtain ⟨found, rfl⟩ := segment_eq_ok read
  have proper : cursor.token ≠ .endOfInput := by
    intro atEnd
    simp [atEnd, Token.segment?] at found
  obtain ⟨rest, rfl, later⟩ := faces.eq_cons rfl proper
  exact ⟨[cursor.token], rest, rfl, Grammar.segment_iff.mpr ⟨_, rfl, found⟩, later⟩

theorem segment_complete (make : String → Problem) {cursor : Cursor}
    {used rest : List Token} {text : String}
    (faces : cursor.Faces (used ++ rest)) (phrase : Grammar.Segment used text) :
    ∃ after, cursor.segment make = .ok (text, after) ∧ after.Faces rest := by
  obtain ⟨token, rfl, found⟩ := Grammar.segment_iff.mp phrase
  refine ⟨cursor.advance, ?_, faces.advance⟩
  have here : cursor.token = token := faces.token_cons
  simp [segment, here, found]

theorem segments_sound {separator : Token}
    {isSeparator : separator.segment? = none} {make : String → Problem}
    {cursor after : Cursor} {tokens : List Token} {texts : List String}
    (proper : separator ≠ .endOfInput) (faces : cursor.Faces tokens)
    (read : cursor.segments separator isSeparator make = .ok (texts, after)) :
    Passes (Grammar.Star (Grammar.Behind separator Grammar.Segment))
      tokens texts after := by
  fun_induction segments separator isSeparator make cursor
    generalizing tokens texts after with
  | case1 => simp at read
  | case2 => simp at read
  | case3 cursor here text next inner shorter more last tail induction =>
      simp only [Except.ok.injEq, Prod.mk.injEq] at read
      obtain ⟨rfl, rfl⟩ := read
      obtain ⟨later, rfl, facesLater⟩ := faces.eq_cons here proper
      obtain ⟨first, middle, rfl, firstPhrase, facesMiddle⟩ :=
        segment_sound facesLater inner
      obtain ⟨others, rest, rfl, morePhrase, facesRest⟩ :=
        induction facesMiddle tail
      exact ⟨(separator :: first) ++ others, rest, by simp,
        .cons (.intro firstPhrase) morePhrase, facesRest⟩
  | case4 cursor elsewhere =>
      simp only [Except.ok.injEq, Prod.mk.injEq] at read
      obtain ⟨rfl, rfl⟩ := read
      exact ⟨[], tokens, rfl, .nil, faces⟩

theorem segments_complete {separator : Token}
    (isSeparator : separator.segment? = none) (make : String → Problem)
    {used rest : List Token} {texts : List String}
    (phrase : Grammar.Star (Grammar.Behind separator Grammar.Segment) used texts)
    (stops : rest.head?.getD .endOfInput ≠ separator) {cursor : Cursor}
    (faces : cursor.Faces (used ++ rest)) :
    ∃ after, cursor.segments separator isSeparator make = .ok (texts, after) ∧
      after.Faces rest := by
  induction phrase generalizing cursor with
  | nil =>
      have elsewhere : cursor.token ≠ separator := by
        rw [faces.token]
        exact stops
      exact ⟨cursor, segments_nil elsewhere, faces⟩
  | cons behind morePhrase induction =>
      obtain ⟨firstPhrase⟩ := behind
      have here : cursor.token = separator := faces.token_cons
      have facesFirst := faces.advance
      simp only [List.append_eq, List.append_assoc] at facesFirst
      obtain ⟨next, inner, facesNext⟩ :=
        segment_complete make facesFirst firstPhrase
      obtain ⟨last, tail, facesLast⟩ := induction facesNext
      exact ⟨last, segments_cons here inner tail, facesLast⟩

end Cursor

namespace Grammar

private theorem tapTarget_eq_job_iff {segments : List String} :
    ChannelKeyword.tapTarget segments = .job ↔ EchoesJob segments := by
  have lowered : Kind.job.word.toList.map Char.toLower = ['j', 'o', 'b'] := by
    decide
  match segments with
  | [] => simp [ChannelKeyword.tapTarget, EchoesJob]
  | [_] => simp [ChannelKeyword.tapTarget, EchoesJob]
  | first :: second :: rest =>
      simp [ChannelKeyword.tapTarget, EchoesJob, Text.sameLetters, lowered]

theorem denotes_iff {keyword : ChannelKeyword} {segments : List String}
    {kind : ChannelKind} :
    Denotes keyword segments kind ↔ keyword.kindOf segments = kind := by
  constructor
  · intro denotes
    cases denotes with
    | queue | topic | stream | job => rfl
    | tapJob echo =>
        simp [ChannelKeyword.kindOf, ChannelKeyword.kind?,
          tapTarget_eq_job_iff.mpr echo]
    | tapStream silent =>
        have target : ChannelKeyword.tapTarget segments = .stream := by
          cases found : ChannelKeyword.tapTarget segments with
          | stream => rfl
          | job => exact (silent (tapTarget_eq_job_iff.mp found)).elim
        simp [ChannelKeyword.kindOf, ChannelKeyword.kind?, target]
  · rintro rfl
    cases keyword with
    | queue => exact .queue _
    | topic => exact .topic _
    | stream => exact .stream _
    | job => exact .job _
    | tap =>
        simp only [ChannelKeyword.kindOf, ChannelKeyword.kind?, Option.getD_none]
        cases found : ChannelKeyword.tapTarget segments with
        | job => exact .tapJob (tapTarget_eq_job_iff.mp found)
        | stream =>
            refine .tapStream fun echo => ?_
            rw [tapTarget_eq_job_iff.mpr echo] at found
            cases found

private theorem isTap_kindOf {keyword : ChannelKeyword} (segments : List String) :
    (keyword.kindOf segments).isTap = true ↔ keyword = .tap := by
  cases keyword <;> simp [ChannelKeyword.kindOf, ChannelKeyword.kind?,
    ChannelKind.isTap, ChannelKind.tapped?]

/-- A row of at most one phrase is a phrase that may be left out. -/
theorem Star.toOptional {phrase : List Token → α → Prop} {tokens : List Token}
    {values : List α} (star : Star phrase tokens values)
    (short : values.length ≤ 1) :
    ∃ value : Option α, values = value.toList ∧ Optional phrase tokens value := by
  cases star with
  | nil => exact ⟨none, rfl, .none⟩
  | cons first more =>
      cases more with
      | nil => exact ⟨some _, rfl, by simpa using .some first⟩
      | cons => simp at short

private theorem Optional.toStar {phrase : List Token → α → Prop} {tokens : List Token}
    {value : Option α} (optional : Optional phrase tokens value) :
    Star phrase tokens value.toList := by
  cases optional with
  | none => exact .nil
  | some first => simpa using Star.cons first .nil

end Grammar

namespace Cursor

theorem channelKeyword?_eq_some {cursor : Cursor} {tokens : List Token}
    {keyword : ChannelKeyword} (faces : cursor.Faces tokens) :
    cursor.channelKeyword? = some keyword ↔
      ∃ rest, tokens = .word keyword.word :: .colon :: rest :=
  channelKeyword?_eq_some_iff.trans (faces.opens_iff (by simp))

theorem channel_eq_ok {keyword : ChannelKeyword} {cursor after : Cursor}
    {found : Channel} :
    cursor.channel keyword = .ok (found, after) ↔
      ∃ first cursor₁ more cursor₂ index,
        cursor.advance.advance.segment .expectedChannelSegment =
            .ok (first, cursor₁) ∧
          cursor₁.segments .colon rfl .expectedChannelSegment =
            .ok (more, cursor₂) ∧
          cursor₂.segments .dot rfl .expectedIndexSegment = .ok (index, after) ∧
          (index ≠ [] → keyword = .tap) ∧ index.length ≤ 1 ∧
          found = ⟨keyword.kindOf (first :: more), first :: more, index,
            cursor.span.merge after.before⟩ := by
  simp only [channel, bind_eq_ok, Prod.exists]
  constructor
  · rintro ⟨first, cursor₁, firstRead, more, cursor₂, moreRead, index, cursor₃,
      indexRead, read⟩
    split at read
    · simp at read
    · rename_i allowed
      split at read
      · simp at read
      · rename_i short
        simp only [Except.ok.injEq, Prod.mk.injEq] at read
        obtain ⟨rfl, rfl⟩ := read
        refine ⟨first, cursor₁, more, cursor₂, index, firstRead, moreRead,
          indexRead, ?_, by omega, rfl⟩
        intro indexed
        rw [← Grammar.isTap_kindOf (first :: more)]
        simpa [indexed] using allowed
  · rintro ⟨first, cursor₁, more, cursor₂, index, firstRead, moreRead, indexRead,
      allowed, short, rfl⟩
    refine ⟨first, cursor₁, firstRead, more, cursor₂, moreRead, index, after,
      indexRead, ?_⟩
    have onlyTaps :
        (!index.isEmpty && !(keyword.kindOf (first :: more)).isTap) = false := by
      by_cases empty : index = []
      · simp [empty]
      · simp [(Grammar.isTap_kindOf _).mpr (allowed empty)]
    simp [onlyTaps, Nat.not_lt.mpr short]

theorem channel_sound {keyword : ChannelKeyword} {cursor after : Cursor}
    {tokens : List Token} {found : Channel} (faces : cursor.Faces tokens)
    (opening : cursor.channelKeyword? = some keyword)
    (read : cursor.channel keyword = .ok (found, after)) :
    Passes Grammar.Channel tokens found.form after := by
  obtain ⟨body, rfl⟩ := (channelKeyword?_eq_some faces).mp opening
  obtain ⟨first, cursor₁, more, cursor₂, index, firstRead, moreRead, indexRead,
    allowed, short, rfl⟩ := channel_eq_ok.mp read
  obtain ⟨firstTokens, _, rfl, firstPhrase, faces₁⟩ :=
    segment_sound faces.advance.advance firstRead
  obtain ⟨moreTokens, _, rfl, morePhrase, faces₂⟩ :=
    segments_sound (by simp) faces₁ moreRead
  obtain ⟨indexTokens, rest, rfl, indexPhrase, faces₃⟩ :=
    segments_sound (by simp) faces₂ indexRead
  obtain ⟨element, rfl, elementPhrase⟩ := indexPhrase.toOptional short
  have tapOnly : element ≠ none → keyword = .tap := by
    intro present
    exact allowed (by cases element <;> simp_all)
  exact ⟨_, rest, by simp,
    .intro firstPhrase morePhrase elementPhrase tapOnly
      (Grammar.denotes_iff.mpr rfl),
    faces₃⟩

theorem channel_complete {used rest : List Token} {form : Channel.Form}
    (phrase : Grammar.Channel used form)
    (stops : rest.head?.getD .endOfInput ≠ .colon ∧
      rest.head?.getD .endOfInput ≠ .dot)
    {cursor : Cursor} (faces : cursor.Faces (used ++ rest)) :
    ∃ keyword found after, cursor.channelKeyword? = some keyword ∧
      cursor.channel keyword = .ok (found, after) ∧ found.form = form ∧
      after.Faces rest := by
  cases phrase with
  | @intro keyword kind first more index firstTokens moreTokens indexTokens
      firstPhrase morePhrase indexPhrase tapOnly denotes =>
      have opening : cursor.channelKeyword? = some keyword :=
        (channelKeyword?_eq_some faces).mpr ⟨_, rfl⟩
      have facesFirst := faces.advance.advance
      simp only [List.append_eq, List.append_assoc] at facesFirst
      obtain ⟨cursor₁, firstRead, faces₁⟩ :=
        segment_complete .expectedChannelSegment facesFirst firstPhrase
      have colonStops :
          (indexTokens ++ rest).head?.getD .endOfInput ≠ .colon := by
        cases indexPhrase with
        | none => exact stops.1
        | some behind =>
            cases behind
            simp
      obtain ⟨cursor₂, moreRead, faces₂⟩ := segments_complete rfl
        .expectedChannelSegment morePhrase colonStops faces₁
      obtain ⟨after, indexRead, facesAfter⟩ := segments_complete rfl
        .expectedIndexSegment indexPhrase.toStar stops.2 faces₂
      have allowed : index.toList ≠ [] → keyword = .tap := by
        intro present
        exact tapOnly (by cases index <;> simp_all)
      have short : index.toList.length ≤ 1 := by cases index <;> simp
      refine ⟨keyword, _, after, opening, channel_eq_ok.mpr ⟨first, cursor₁, more,
        cursor₂, index.toList, firstRead, moreRead, indexRead, allowed, short, rfl⟩,
        ?_, facesAfter⟩
      simp [Channel.form, Grammar.denotes_iff.mp denotes]

end Cursor

end Tapline
