import Tapline.Proofs.Composition
import Tapline.Proofs.Recasting

/-!
# Spacing

Where lexemes are does not matter for what they mean, so a definition has the same form
and the same problem wherever its tokens come from.  Blanks around a text only move its
lexemes, unless a quote in it is never closed: then those behind it go into the value, which
is not looked at.
-/

namespace Tapline

namespace Text

/-- A quote that is not closed stays open if no further quote follows. -/
theorem readQuoted_open {quote : Char} {text rest : List Char}
    (opened : (readQuoted quote text).closed = false) (noQuote : ∀ c ∈ rest, c ≠ quote) :
    (readQuoted quote (text ++ rest)).closed = false := by
  fun_induction readQuoted quote text with
  | case1 =>
      induction rest with
      | nil => rfl
      | cons c rest induction =>
          rw [List.forall_mem_cons] at noQuote
          rw [List.nil_append, readQuoted_cons_of_ne rest noQuote.1]
          exact induction noQuote.2
  | case2 after induction => simpa [readQuoted, QuotedBody.push] using induction opened
  | case3 => cases opened
  | case4 => cases opened
  | case5 c text different induction =>
      rw [List.cons_append, readQuoted_cons_of_ne _ different]
      exact induction opened

private theorem ne_of_isAsciiBlank {quote c : Char} (isQuote : isQuote quote = true)
    (blank : isAsciiBlank c = true) : c ≠ quote := by
  rintro rfl
  simp only [Text.isQuote, Bool.or_eq_true, beq_iff_eq] at isQuote
  rcases isQuote with rfl | rfl <;> cases blank

end Text

namespace Piece

variable {mode : LexMode} {c : Char} {text raw after trail : List Char}

private theorem read_quote (isQuote : Text.isQuote c = true) :
    read mode c text = readQuotation c text := by
  simp only [Text.isQuote, Bool.or_eq_true, beq_iff_eq] at isQuote
  rcases isQuote with rfl | rfl <;> cases mode <;> rfl

theorem readQuotation_open (opened : (Text.readQuoted c text).closed = false) :
    readQuotation c text =
      (.spelling (c :: (Text.readQuoted c text).raw)
        (.unterminated (String.ofList (Text.readQuoted c text).value)), []) := by
  simp [readQuotation, opened, Text.rest_readQuoted_of_open opened]

/-- Blanks behind a value whose quote is still open go into the value. -/
theorem read_open {value : String}
    (reads : read mode c text = (.spelling raw (.unterminated value), after))
    (blank : ∀ d ∈ trail, Text.isAsciiBlank d = true) :
    after = [] ∧ ∃ longer other,
      read mode c (text ++ trail) = (.spelling longer (.unterminated other), []) := by
  have whole := read_append mode c text
  have faithful := faithful_read mode c text
  rw [reads] at whole faithful
  cases (faithful : Token.SpelledBy (.unterminated value) raw after) with
  | @unterminated quote _ body isQuote _ _ =>
      obtain ⟨rfl, -⟩ := List.cons.inj whole
      rw [read_quote isQuote] at reads
      have opened : (Text.readQuoted quote text).closed = false := by
        cases closed : (Text.readQuoted quote text).closed with
        | false => rfl
        | true => simp [readQuotation, closed] at reads
      have stays : (Text.readQuoted quote (text ++ trail)).closed = false :=
        Text.readQuoted_open opened fun d member =>
          Text.ne_of_isAsciiBlank isQuote (blank d member)
      exact ⟨rfl, _, _, (read_quote isQuote).trans (readQuotation_open stays)⟩

theorem tokens_blanks (mode : LexMode) {raw : List Char} (nonempty : raw ≠ [])
    (blank : ∀ d ∈ raw, Text.isAsciiBlank d = true) (text : List Char) :
    tokens mode (raw ++ text) = tokens mode.pastBlank text := by
  have lexemes := congrArg (List.map Lexeme.token)
    (Lexeme.scan_blanks mode 0 text nonempty blank)
  simp only [Lexeme.scan, Lexeme.map_token_place] at lexemes
  exact List.append_cancel_right lexemes

theorem tokens_leading {lead : List Char} (blank : ∀ d ∈ lead, Text.isAsciiBlank d = true)
    (text : List Char) : tokens .ordinary (lead ++ text) = tokens .ordinary text := by
  cases lead with
  | nil => rfl
  | cons d lead => exact tokens_blanks .ordinary (List.cons_ne_nil d lead) blank text

private theorem tokens_of_blank (mode : LexMode) (blank : ∀ d ∈ trail, Text.isAsciiBlank d = true) :
    tokens mode trail = [] := by
  cases trail with
  | nil => exact tokens_nil mode
  | cons d trail =>
      have alone := tokens_blanks mode (List.cons_ne_nil d trail) blank []
      rwa [List.append_nil, tokens_nil] at alone

/-- Blanks behind a text change its tokens only in a value without a closing quote. -/
theorem map_tokens_trailing (mode : LexMode) (text : List Char)
    (blank : ∀ d ∈ trail, Text.isAsciiBlank d = true) (change : String → String)
    (forgets : ∀ value other, change value = change other) :
    (tokens mode (text ++ trail)).map (·.mapUnterminated change) =
      (tokens mode text).map (·.mapUnterminated change) := by
  fun_induction ofText mode text with
  | case1 mode => rw [List.nil_append, tokens_of_blank mode blank, tokens_nil]
  | case2 mode c text induction =>
      have whole := read_append mode c text
      have nonempty := read_raw_ne_nil mode c text
      have faithful := faithful_read mode c text
      generalize reads : read mode c text = found at whole nonempty faithful induction
      obtain ⟨piece, after⟩ := found
      dsimp only at whole nonempty faithful induction
      cases piece with
      | blank raw =>
          have blanks (rest : List Char) :
              tokens mode (raw ++ rest) = tokens mode.pastBlank rest :=
            tokens_blanks mode nonempty faithful rest
          rw [Lexeme.next_blank] at induction
          change raw ++ after = c :: text at whole
          rw [← whole, List.append_assoc, blanks, blanks]
          exact induction
      | spelling raw token =>
          rw [tokens_of_read reads, List.cons_append]
          -- Any token but an open quote ends where it did, since a blank separates.
          have separated : Text.Separated trail :=
            fun d first => blank d (List.mem_of_mem_head? first)
          cases token with
          | unterminated value =>
              obtain ⟨rfl, longer, other, again⟩ := read_open reads blank
              rw [tokens_of_read again]
              simp [token?, Token.mapUnterminated, forgets other value]
          | _ =>
              rw [tokens_of_read (read_before separated reads rfl), List.map_append,
                List.map_append, induction]

end Piece

namespace Recast

/-- No spans are left, nor any values without a closing quote. -/
def forgetting : Recast where
  move _ := .origin
  move_origin := rfl
  move_merge _ _ := rfl
  value _ := ""

private theorem lexemes_forgetting {lexemes others : List Lexeme}
    (same : lexemes.map (·.token.mapUnterminated forgetting.value) =
      others.map (·.token.mapUnterminated forgetting.value)) :
    forgetting.lexemes lexemes = forgetting.lexemes others := by
  induction lexemes generalizing others with
  | nil =>
      obtain rfl := List.map_eq_nil_iff.mp same.symm
      rfl
  | cons lexeme lexemes induction =>
      obtain ⟨other, rest, rfl, here, later⟩ := List.map_eq_cons_iff.mp same.symm
      have copies : forgetting.lexeme other = forgetting.lexeme lexeme :=
        congrArg (Lexeme.mk · .origin) here
      have atEnd : other.token = .endOfInput ↔ lexeme.token = .endOfInput := by
        rw [← Token.mapUnterminated_eq_endOfInput, here,
          Token.mapUnterminated_eq_endOfInput]
      simp only [Recast.lexemes, copies, atEnd, induction later.symm]

end Recast

namespace Pipeline

@[simp] theorem form_mapSpans (move : Span → Span) (pipeline : Pipeline) :
    (pipeline.mapSpans move).form = pipeline.form := by
  have channel : Channel.form ∘ (·.mapSpan move) = Channel.form := rfl
  have module : Module.meaning ∘ (·.mapSpans move) = Module.meaning := by
    funext module
    simp [Module.meaning, Module.mapSpans, Function.comp_def, Argument.entry,
      Argument.mapSpan]
  simp [form, mapSpans, channel, module]

theorem ofLexemes_of_tokens (kind : Kind) {lexemes others : List Lexeme}
    (same : lexemes.map (·.token.mapUnterminated Recast.forgetting.value) =
      others.map (·.token.mapUnterminated Recast.forgetting.value)) :
    Alike (fun left right : Diagnostic => left.problem = right.problem)
      (fun left right : Pipeline => left.form = right.form)
      (ofLexemes kind lexemes) (ofLexemes kind others) := by
  have left := Recast.forgetting.ofLexemes kind lexemes
  have right := Recast.forgetting.ofLexemes kind others
  rw [Recast.lexemes_forgetting same, right] at left
  cases first : ofLexemes kind lexemes with
  | error diagnostic =>
      cases second : ofLexemes kind others with
      | error other =>
          rw [first, second] at left
          exact .error (congrArg Diagnostic.problem (Except.error.inj left)).symm
      | ok => simp [first, second, Recast.outcome] at left
  | ok found =>
      cases second : ofLexemes kind others with
      | error => simp [first, second, Recast.outcome] at left
      | ok other =>
          rw [first, second] at left
          have forms := congrArg form (Except.ok.inj left)
          rw [form_mapSpans, form_mapSpans] at forms
          exact .ok forms.symm

end Pipeline

namespace Lexeme

variable {lead trail : List Char}

private theorem scan_nil (mode : LexMode) (offset : Nat) :
    scan mode offset [] = [⟨.endOfInput, ⟨offset, offset⟩⟩] := by
  rw [scan, Piece.ofText]
  rfl

private theorem scan_of_blank (mode : LexMode) (offset : Nat)
    (blank : ∀ c ∈ trail, Text.isAsciiBlank c = true) :
    ∃ finish, scan mode offset trail = [⟨.endOfInput, finish⟩] := by
  cases trail with
  | nil => exact ⟨_, scan_nil mode offset⟩
  | cons c trail =>
      have alone := scan_blanks mode offset [] (List.cons_ne_nil c trail) blank
      rw [List.append_nil, scan_nil] at alone
      exact ⟨_, alone⟩

theorem scan_leading (blank : ∀ c ∈ lead, Text.isAsciiBlank c = true) (text : List Char) :
    scan .ordinary 0 (lead ++ text) =
      (scan .ordinary 0 text).map (·.mapSpan (.shift (Text.byteLength lead))) := by
  rw [← scan_shift, Nat.zero_add]
  cases lead with
  | nil => rfl
  | cons c lead =>
      have moved := scan_blanks .ordinary 0 text (List.cons_ne_nil c lead) blank
      rwa [Nat.zero_add] at moved

theorem ofText_spaced {before text behind : String}
    (leading : ∀ c ∈ before.toList, Text.isAsciiBlank c = true)
    (trailing : ∀ c ∈ behind.toList, Text.isAsciiBlank c = true)
    (closed : ∀ piece ∈ Piece.ofText .ordinary text.toList, piece.isClosed = true) :
    ∃ lexemes last finish, ofText text = lexemes ++ [last] ∧ last.token = .endOfInput ∧
      ofText (before ++ text ++ behind) =
        lexemes.map (·.mapSpan (.shift before.utf8ByteSize)) ++
          [⟨.endOfInput, finish⟩] := by
  have separated : Text.Separated behind.toList :=
    fun c first => trailing c (List.mem_of_mem_head? first)
  obtain ⟨lexemes, mode, alone, followed⟩ := scan_append 0 separated closed
  obtain ⟨finish, ends⟩ := scan_of_blank mode (0 + Text.byteLength text.toList) trailing
  refine ⟨lexemes, _, finish.shift before.utf8ByteSize, alone, rfl, ?_⟩
  have together : (before ++ text ++ behind).toList =
      before.toList ++ (text.toList ++ behind.toList) := by simp
  have moved := scan_leading leading (text.toList ++ behind.toList)
  rw [← together, followed, ends, Text.byteLength_toList] at moved
  rw [List.map_append] at moved
  exact moved

theorem map_ofText_spaced (text : String) {before behind : String}
    (leading : ∀ c ∈ before.toList, Text.isAsciiBlank c = true)
    (trailing : ∀ c ∈ behind.toList, Text.isAsciiBlank c = true)
    (change : String → String) (forgets : ∀ value other, change value = change other) :
    (ofText (before ++ text ++ behind)).map (·.token.mapUnterminated change) =
      (ofText text).map (·.token.mapUnterminated change) := by
  have together : (before ++ text ++ behind).toList =
      before.toList ++ (text.toList ++ behind.toList) := by simp
  have tokens := Piece.map_tokens_trailing .ordinary text.toList trailing change forgets
  have split (lexemes : List Lexeme) :
      lexemes.map (·.token.mapUnterminated change) =
        (lexemes.map Lexeme.token).map (·.mapUnterminated change) := by
    rw [List.map_map]
    rfl
  rw [split, split, map_token_ofText, map_token_ofText, together,
    Piece.tokens_leading leading, List.map_append, List.map_append, tokens]

end Lexeme

namespace Pipeline

theorem ne_endOfInput_of_ofCursor {start : Cursor} {found : Pipeline}
    (read : ofCursor start = .ok found) : start.token ≠ .endOfInput := by
  intro atEnd
  simp [ofCursor, Cursor.definitionName, Cursor.source, Cursor.channelKeyword?,
    Cursor.modules, atEnd, bind, Except.bind] at read

/-- A definition that is found up to the end of the input is found there as well. -/
theorem ofCursor_beside {move : Span → Span}
    {move_merge : ∀ left right, move (left.merge right) = (move left).merge (move right)}
    {finish : Span} {alone start : Cursor} {found : Pipeline}
    (beside : (Transfer.untilEnd move move_merge ⟨.endOfInput, finish⟩ rfl []).Beside
      alone start)
    (read : ofCursor alone = .ok found) : ofCursor start = .ok (found.mapSpans move) := by
  have span := beside.span_eq (decide_eq_false (ne_endOfInput_of_ofCursor read))
  obtain ⟨name, alone₁, source, alone₂, modules, alone₃, sink, alone₄, nameRead,
    sourceRead, modulesRead, sinkRead, atEnd, distinct, rfl⟩ := ofCursor_eq_ok.mp read
  obtain ⟨cursor₁, nameCopied, beside₁⟩ := beside.definitionName nameRead
  obtain ⟨cursor₂, sourceCopied, beside₂⟩ := beside₁.source rfl sourceRead
  obtain ⟨cursor₃, last, modulesCopied, sinkCopied, ends, before⟩ :=
    modules_sink_behind beside₂ modulesRead sinkRead atEnd
  refine ofCursor_eq_ok.mpr ⟨name, cursor₁, _, cursor₂, _, cursor₃, _, last, nameCopied,
    sourceCopied, modulesCopied, sinkCopied, ends, ?_, ?_⟩
  · rw [firstRepeatedLabel?_mapSpans, distinct]
    rfl
  · rw [span, before, mapSpans]
    exact congrArg _ (move_merge _ _)

variable {kind : Kind} {before text behind : String}

theorem parse_spaced_of_read {found : Pipeline}
    (leading : ∀ c ∈ before.toList, Text.isAsciiBlank c = true)
    (trailing : ∀ c ∈ behind.toList, Text.isAsciiBlank c = true)
    (read : parse kind text = .ok found) :
    parse kind (before ++ text ++ behind) =
      .ok (found.mapSpans (.shift before.utf8ByteSize)) := by
  have stream (read : parse .stream text = .ok found) :
      parse .stream (before ++ text ++ behind) =
        .ok (found.mapSpans (.shift before.utf8ByteSize)) := by
    obtain ⟨lexemes, last, finish, alone, atEnd, spaced⟩ :=
      Lexeme.ofText_spaced leading trailing (isClosed_of_parse read)
    rw [parse_stream] at read ⊢
    exact ofCursor_beside (beside_of_parse ((parse_stream text).trans read) alone atEnd _
      (Span.shift_merge before.utf8ByteSize) ⟨.endOfInput, finish⟩ rfl []
      ((remaining_ofText _).trans spaced)) read
  cases kind with
  | stream => exact stream read
  | job =>
      obtain ⟨whole, single⟩ := parse_job_eq_ok.mp read
      rw [parse_job_eq_ok, ← meaning_form, form_mapSpans, meaning_form]
      exact ⟨stream whole, single⟩

theorem parse_spaced (leading : ∀ c ∈ before.toList, Text.isAsciiBlank c = true)
    (trailing : ∀ c ∈ behind.toList, Text.isAsciiBlank c = true) :
    Alike (fun left right : Diagnostic => left.problem = right.problem)
      (fun found moved => moved = found.mapSpans (.shift before.utf8ByteSize))
      (parse kind text) (parse kind (before ++ text ++ behind)) := by
  have tokens := Lexeme.map_ofText_spaced text leading trailing
    Recast.forgetting.value fun _ _ => rfl
  have alike : Alike _ _ (parse kind text) (parse kind (before ++ text ++ behind)) :=
    ofLexemes_of_tokens kind tokens.symm
  -- The tokens decide the problem, but where the parts are needs the lexemes.
  cases read : parse kind text with
  | ok found =>
      rw [parse_spaced_of_read leading trailing read]
      exact .ok rfl
  | error diagnostic =>
      rw [read] at alike
      obtain ⟨other, failed, same⟩ := alike.of_error
      rw [failed]
      exact .error same

/-- Lexemes with the same tokens spell definitions of the same form, or have the same
problem, and so do texts with other blanks around them.  What a text spells is then moved
by the blanks in front. -/
theorem parse_spacing (kind : Kind) :
    (∀ lexemes others : List Lexeme,
      lexemes.map Lexeme.token = others.map Lexeme.token →
        Alike (fun left right : Diagnostic => left.problem = right.problem)
          (fun left right : Pipeline => left.form = right.form)
          (ofLexemes kind lexemes) (ofLexemes kind others)) ∧
    (∀ before text behind : String,
      (∀ c ∈ before.toList, Text.isAsciiBlank c = true) →
        (∀ c ∈ behind.toList, Text.isAsciiBlank c = true) →
          Alike (fun left right : Diagnostic => left.problem = right.problem)
            (fun found moved => moved = found.mapSpans (.shift before.utf8ByteSize))
            (parse kind text) (parse kind (before ++ text ++ behind))) := by
  refine ⟨fun lexemes others same => ofLexemes_of_tokens kind ?_,
    fun before text behind leading trailing => parse_spaced leading trailing⟩
  have changed := congrArg (List.map (Token.mapUnterminated Recast.forgetting.value)) same
  rwa [List.map_map, List.map_map] at changed

/-- Lexemes at other places, blanks around a definition, and blanks behind a quote that is
not closed. -/
theorem parse_spacing_log :
    let log : Pipeline := ⟨none, none, [⟨"log", none, [⟨"a", "b", ⟨4, 9⟩⟩], ⟨0, 9⟩⟩],
      none, ⟨0, 9⟩⟩
    (∃ span, ofLexemes .stream [⟨.word "log", ⟨7, 2⟩⟩, ⟨.pipe, ⟨9, 9⟩⟩] =
      .error ⟨.danglingPipe, span⟩) ∧
    parse .job "log --a=b" = .ok log ∧
    parse .job ("\t\n " ++ "log --a=b" ++ "\r ") = .ok (log.mapSpans (.shift 3)) ∧
    parse .stream "log --a='b" = .error ⟨.unterminatedLiteral, ⟨8, 10⟩⟩ ∧
    ∃ span, parse .stream ("\t\n " ++ "log --a='b" ++ "\r ") =
      .error ⟨.unterminatedLiteral, span⟩ := by
  intro log
  have dangling : ofLexemes .stream [⟨.word "log", ⟨0, 3⟩⟩, ⟨.pipe, ⟨4, 5⟩⟩] =
      .error ⟨.danglingPipe, ⟨4, 5⟩⟩ := eq_error_of_failure? (by decide +kernel)
  have read : parse .job "log --a=b" = .ok log := eq_ok_of_toOption (by decide +kernel)
  have opened : parse .stream "log --a='b" = .error ⟨.unterminatedLiteral, ⟨8, 10⟩⟩ :=
    eq_error_of_failure? (by decide +kernel)
  have leading : ∀ c ∈ "\t\n ".toList, Text.isAsciiBlank c = true := by
    simp [Text.isAsciiBlank]
  have trailing : ∀ c ∈ "\r ".toList, Text.isAsciiBlank c = true := by
    simp [Text.isAsciiBlank]
  have elsewhere := (parse_spacing .stream).1
    [⟨.word "log", ⟨0, 3⟩⟩, ⟨.pipe, ⟨4, 5⟩⟩]
    [⟨.word "log", ⟨7, 2⟩⟩, ⟨.pipe, ⟨9, 9⟩⟩] rfl
  have moved := (parse_spacing .job).2 "\t\n " "log --a=b" "\r " leading trailing
  have stays := (parse_spacing .stream).2 "\t\n " "log --a='b" "\r " leading trailing
  rw [dangling] at elsewhere
  rw [read] at moved
  rw [opened] at stays
  obtain ⟨⟨_, span⟩, failed, rfl⟩ := elsewhere.of_error
  obtain ⟨_, found, rfl⟩ := moved.of_ok
  obtain ⟨⟨_, other⟩, failedAgain, rfl⟩ := stays.of_error
  exact ⟨⟨span, failed⟩, read, found, opened, other, failedAgain⟩

end Pipeline

end Tapline
