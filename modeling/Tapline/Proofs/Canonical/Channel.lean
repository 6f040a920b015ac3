import Tapline.Proofs.Grammar
import Tapline.Proofs.Lexing

/-!
# The canonical text of channels

The canonical text of a channel depends on its meaning alone.  A meaning is well
formed when its parts are spelled as the language demands.  The text of a
well-formed meaning reads back as tokens that the grammar derives, and the form
they stand for has an echo in front of the target of a tap.
-/

namespace Tapline

/-- A part of a channel name, or an index. -/
def Text.IsSegment (text : String) : Prop :=
  IsWord text.toList ∨ IsNumber text.toList

instance (text : String) : Decidable (Text.IsSegment text) :=
  inferInstanceAs (Decidable (_ ∨ _))

/-- A segment of digits is a number, and any other is a word. -/
def Token.ofSegment (text : String) : Token :=
  if text.toList.all Char.isDigit then .number text else .word text

theorem Token.ofSegment_of_isWord {text : String}
    (isWord : Text.IsWord text.toList) : ofSegment text = .word text := by
  have noNumber : text.toList.all Char.isDigit = false := by
    generalize text.toList = word at isWord
    cases isWord with
    | intro start _ => simp [Text.isDigit_of_isWordStart start]
  simp [ofSegment, noNumber]

theorem Token.ofSegment_of_isNumber {text : String}
    (isNumber : Text.IsNumber text.toList) : ofSegment text = .number text := by
  have allDigits : text.toList.all Char.isDigit = true := by
    generalize text.toList = number at isNumber
    cases isNumber with
    | intro digit tail => simpa [digit] using tail
  simp [ofSegment, allDigits]

theorem Grammar.segment_ofSegment (text : String) :
    Grammar.Segment [Token.ofSegment text] text := by
  unfold Token.ofSegment
  split
  · exact .number text
  · exact .word text

theorem Text.endsWord_colon (rest : List Char) : EndsWord (':' :: rest) := by
  intro c member
  cases member
  decide

/-- The keyword that opens a channel of the kind. -/
def ChannelKind.keyword : ChannelKind → ChannelKeyword
  | .stream => .stream
  | .job => .job
  | .queue => .queue
  | .topic => .topic
  | .tap _ => .tap

namespace Channel

namespace Meaning

/-- What the grammar and the lexer demand of a channel. -/
structure WellFormed (channel : Meaning) : Prop where
  target_ne_nil : channel.target ≠ []
  target_isSegment : ∀ segment ∈ channel.target, Text.IsSegment segment
  index_isSegment : ∀ element ∈ channel.index, Text.IsSegment element
  index_length_le : channel.index.length ≤ 1
  index_of_tap : channel.index ≠ [] → channel.kind.isTap = true

/-- The form with an echo in front of the target of a tap. -/
def form (channel : Meaning) : Form :=
  ⟨channel.kind, channel.kind.echo?.toList ++ channel.target, channel.index⟩

/-- The echo is no part of the meaning. -/
theorem meaning_form {channel : Meaning} (named : channel.target ≠ []) :
    channel.form.meaning = channel := by
  obtain ⟨kind, target, index⟩ := channel
  cases target with
  | nil => exact (named rfl).elim
  | cons first rest =>
      cases kind with
      | tap target =>
          simp [form, Form.meaning, Form.at, Channel.meaning, Channel.target,
            ChannelKind.echo?, ChannelKind.tapped?, Text.sameLetters_self]
      | _ => rfl

def tokens (channel : Meaning) : List Token :=
  match channel.form.segments with
  | [] => []
  | first :: more =>
      .word channel.kind.keyword.word :: .colon :: Token.ofSegment first ::
        (more.flatMap (fun segment => [.colon, Token.ofSegment segment]) ++
          channel.index.flatMap fun element => [.dot, Token.ofSegment element])

theorem form_isSegment {channel : Meaning} (wellFormed : channel.WellFormed) :
    ∀ segment ∈ channel.form.segments, Text.IsSegment segment := by
  intro segment member
  rcases List.mem_append.mp member with echo | target
  · rw [Option.mem_toList] at echo
    obtain ⟨kind, -, rfl⟩ := Option.map_eq_some_iff.mp echo
    left
    cases kind <;> exact Text.isWord_of_splitWord rfl rfl
  · exact wellFormed.target_isSegment segment target

theorem denotes_form {channel : Meaning} (named : channel.target ≠ []) :
    Grammar.Denotes channel.kind.keyword channel.form.segments channel.kind := by
  obtain ⟨kind, target, index⟩ := channel
  cases target with
  | nil => exact (named rfl).elim
  | cons first rest =>
      cases kind with
      | stream => exact .stream _
      | job => exact .job _
      | queue => exact .queue _
      | topic => exact .topic _
      | tap target =>
          cases target with
          | job => exact .tapJob ⟨"job", first, rest, rfl, by decide⟩
          | stream =>
              apply Grammar.Denotes.tapStream
              rintro ⟨echo, _, _, equality, lowered⟩
              simp only [form, ChannelKind.echo?, ChannelKind.tapped?,
                Option.map_some, Option.toList_some, List.cons_append,
                List.cons.injEq] at equality
              rw [← equality.1] at lowered
              exact absurd lowered (by decide)

end Meaning

end Channel

namespace Grammar

private theorem star_behind_segment (sign : Token) (segments : List String) :
    Star (Behind sign Segment)
      (segments.flatMap fun segment => [sign, Token.ofSegment segment])
      segments := by
  induction segments with
  | nil => exact .nil
  | cons segment segments induction =>
      exact .cons (.intro (segment_ofSegment segment)) induction

theorem channel_tokens {channel : Channel.Meaning}
    (wellFormed : channel.WellFormed) :
    Grammar.Channel channel.tokens channel.form := by
  have denotes := Channel.Meaning.denotes_form wellFormed.target_ne_nil
  have nonempty : channel.form.segments ≠ [] := by
    simp [Channel.Meaning.form, wellFormed.target_ne_nil]
  obtain ⟨kind, target, index⟩ := channel
  cases segments : Channel.Meaning.form ⟨kind, target, index⟩ |>.segments with
  | nil => exact (nonempty segments).elim
  | cons first more =>
      rw [segments] at denotes
      obtain ⟨element, rfl⟩ : ∃ element : Option String, index = element.toList := by
        have short := wellFormed.index_length_le
        match index, short with
        | [], _ => exact ⟨none, rfl⟩
        | [element], _ => exact ⟨some element, rfl⟩
      have indexPhrase : Optional (Behind .dot Segment)
          (element.toList.flatMap fun element => [.dot, Token.ofSegment element])
          element := by
        cases element with
        | none => exact .none
        | some text => exact .some (.intro (segment_ofSegment text))
      have tapOnly : element ≠ none → kind.keyword = .tap := by
        intro present
        have isTap : kind.isTap = true :=
          wellFormed.index_of_tap (by cases element <;> simp_all)
        cases kind with
        | tap => rfl
        | _ => simp [ChannelKind.isTap, ChannelKind.tapped?] at isTap
      have phrase := Channel.intro (segment_ofSegment first)
        (star_behind_segment .colon more) indexPhrase tapOnly denotes
      have form : Channel.Meaning.form ⟨kind, target, element.toList⟩ =
          ⟨kind, first :: more, element.toList⟩ := by
        rw [← segments]
        rfl
      rw [form]
      simpa [Channel.Meaning.tokens, segments] using phrase

end Grammar

namespace Piece

theorem tokens_segment {segment : String} {rest : List Char}
    (isSegment : Text.IsSegment segment) (ends : Text.EndsWord rest) :
    tokens .ordinary (segment.toList ++ rest) =
      Token.ofSegment segment :: tokens .ordinary rest := by
  rcases isSegment with isWord | isNumber
  · rw [tokens_word isWord ends, Token.ofSegment_of_isWord isWord]
  · rw [tokens_number isNumber ends, Token.ofSegment_of_isNumber isNumber]

private theorem head?_segment_ne {segment : String} (isSegment : Text.IsSegment segment)
    (rest : List Char) : (segment.toList ++ rest).head? ≠ some ':' := by
  intro colon
  rcases isSegment with isWord | isNumber
  · generalize segment.toList = word at isWord colon
    cases isWord with
    | intro start _ =>
        simp only [List.cons_append, List.head?_cons, Option.some.injEq] at colon
        subst colon
        exact absurd start (by decide)
  · generalize segment.toList = number at isNumber colon
    cases isNumber with
    | intro digit _ =>
        simp only [List.cons_append, List.head?_cons, Option.some.injEq] at colon
        subst colon
        exact absurd digit (by decide)

theorem tokens_segments (sign : Char) {token : Token}
    (isSign : Text.isWordChar sign = false ∧ sign ≠ '-')
    (reads : ∀ {rest}, rest.head? ≠ some ':' →
      tokens .ordinary (sign :: rest) = token :: tokens .ordinary rest)
    {segments : List String} (spelled : ∀ segment ∈ segments, Text.IsSegment segment)
    {rest : List Char} (ends : Text.EndsWord rest) :
    Text.EndsWord (segments.flatMap (sign :: ·.toList) ++ rest) ∧
      tokens .ordinary (segments.flatMap (sign :: ·.toList) ++ rest) =
        segments.flatMap (fun segment => [token, Token.ofSegment segment]) ++
          tokens .ordinary rest := by
  induction segments with
  | nil => exact ⟨ends, rfl⟩
  | cons segment segments induction =>
      have isSegment := spelled segment List.mem_cons_self
      obtain ⟨endsLater, induction⟩ := induction fun later member =>
        spelled later (List.mem_cons_of_mem _ member)
      constructor
      · simpa [Text.EndsWord] using isSign
      · simp only [List.flatMap_cons, List.cons_append, List.append_assoc,
          List.nil_append]
        rw [reads (head?_segment_ne isSegment _), tokens_segment isSegment endsLater,
          induction]

end Piece

theorem intercalate_cons (separator first : List α) (more : List (List α)) :
    separator.intercalate (first :: more) =
      first ++ more.flatMap (separator ++ ·) := by
  induction more generalizing first with
  | nil => simp
  | cons second more induction =>
      rw [List.intercalate_cons_cons, induction]
      simp

namespace Channel

private theorem isWord_keyword (keyword : ChannelKeyword) :
    Text.IsWord keyword.word.toList := by
  cases keyword <;> exact Text.isWord_of_splitWord rfl rfl

private theorem toList_opening_append {kind : ChannelKind} {target : List String}
    (named : target ≠ []) :
    kind.opening.toList ++ [':'].intercalate (target.map String.toList) =
      kind.keyword.word.toList ++
        ':' :: [':'].intercalate
          ((kind.echo?.toList ++ target).map String.toList) := by
  cases kind with
  | tap kind =>
      have mapped : target.map String.toList ≠ [] := by simpa using named
      simp [ChannelKind.opening, ChannelKind.keyword, ChannelKeyword.word,
        ChannelKind.echo?, ChannelKind.tapped?,
        List.intercalate_cons_of_ne_nil mapped]
  | _ => rfl

private theorem toList_qualifiedName {channel : Channel} (named : channel.target ≠ []) :
    channel.qualifiedName.toList =
      channel.kind.keyword.word.toList ++
        ':' :: ([':'].intercalate
            (channel.meaning.form.segments.map String.toList) ++
          channel.meaning.index.flatMap ('.' :: ·.toList)) := by
  have plain : channel.qualifiedName.toList =
      channel.kind.opening.toList ++
        [':'].intercalate (channel.target.map String.toList) ++
          channel.index.flatMap ('.' :: ·.toList) := by
    simp [qualifiedName, targetName, indexText, List.flatMap_map]
  rw [plain, toList_opening_append named]
  simp [Meaning.form, Channel.meaning]

/-- A channel reads back as the tokens of its meaning. -/
theorem tokens_qualifiedName {channel : Channel}
    (wellFormed : channel.meaning.WellFormed) {rest : List Char}
    (ends : Text.EndsWord rest) :
    Piece.tokens .ordinary (channel.qualifiedName.toList ++ rest) =
      channel.meaning.tokens ++ Piece.tokens .ordinary rest := by
  obtain ⟨endsIndex, indexTokens⟩ := Piece.tokens_segments '.' (by decide)
    (fun _ => Piece.tokens_dot _) wellFormed.index_isSegment ends
  have spelled := Meaning.form_isSegment wellFormed
  rw [toList_qualifiedName wellFormed.target_ne_nil]
  unfold Meaning.tokens
  cases segments : channel.meaning.form.segments with
  | nil =>
      exact absurd segments (by simp [Meaning.form, wellFormed.target_ne_nil])
  | cons first more =>
      rw [segments] at spelled
      have isSegment := spelled first List.mem_cons_self
      obtain ⟨endsMore, moreTokens⟩ := Piece.tokens_segments ':' (by decide)
        Piece.tokens_colon
        (fun later member => spelled later (List.mem_cons_of_mem _ member)) endsIndex
      simp only [List.map_cons, intercalate_cons, List.flatMap_map, List.append_assoc,
        List.cons_append, List.nil_append]
      rw [Piece.tokens_word (isWord_keyword _) (Text.endsWord_colon _),
        Piece.tokens_colon (Piece.head?_segment_ne isSegment _),
        Piece.tokens_segment isSegment endsMore, moreTokens, indexTokens]
      rfl

end Channel

end Tapline
