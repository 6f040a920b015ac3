import Tapline.Proofs.Composition
import Tapline.Proofs.Cutting
import Tapline.Proofs.Parts

/-!
# Parts of a text by themselves

The characters at the span of a module, a channel or an argument are read by themselves
as they were read in their text.  They have the same lexemes, moved to the beginning.
What comes next there is a boundary, and so is what is put behind them.
-/

namespace Tapline

open Cursor (Consumes)
open Lexeme (Spanned)

/-- The characters at the span, taken out of the text, have the lexemes `alone`.  These
are the lexemes `used` of the text, moved to the beginning. -/
structure Lexeme.Excerpt (text : String) (span : Span) (used : List Lexeme)
    (inside : List Char) (alone : List Lexeme) : Prop where
  slice_eq : Text.slice? text.toList span.start span.stop = some inside
  ofText_eq : ∃ finish, ofText (String.ofList inside) = alone ++ [⟨.endOfInput, finish⟩]
  map_shift : alone.map (·.mapSpan (.shift span.start)) = used

theorem Lexeme.exists_excerpt {text : String} {used : List Lexeme} {span : Span}
    (within : used <:+: ofText text) (spanned : Spanned used span)
    (plain : ∀ lexeme ∈ used, lexeme.token.isPlain = true)
    (opens : ∀ first ∈ used.head?, first.token.opensPhrase = true) :
    ∃ inside alone, Excerpt text span used inside alone := by
  obtain ⟨first, last, atHead, atEnd, rfl⟩ :=
    ((ordered_ofText text).sublist within.sublist).ends spanned
  obtain ⟨passed, rest, whole⟩ := within
  have split : place 0 (Piece.ofText .ordinary text.toList) = passed ++ (used ++ rest) := by
    rw [← List.append_assoc]
    exact whole.symm
  obtain ⟨before, raw, inner, back, pieces, start, stop, placed⟩ :=
    exists_pieces split atHead atEnd fun lexeme member =>
      Token.ne_endOfInput_of_isPlain (plain lexeme member)
  have closed := isClosed_of_place placed plain
  have read := Piece.ofText_of_opensPhrase (opens first atHead)
    (Piece.ofText_cut (Piece.ofText_behind pieces) closed)
  generalize .spelling raw first.token :: inner = front at pieces stop placed read
  rw [Nat.zero_add] at start
  have inText := Piece.raw_ofText .ordinary text.toList
  rw [pieces, List.flatMap_append, List.flatMap_append] at inText
  have cutOut := Text.slice?_append (before.flatMap Piece.raw) (front.flatMap Piece.raw)
    (back.flatMap Piece.raw)
  rw [inText, start, stop] at cutOut
  obtain ⟨alone, wholeAlone, -⟩ := exists_tiling (String.ofList (front.flatMap Piece.raw))
  have moved := place_shift first.span.start 0 front
  rw [Nat.zero_add, placed] at moved
  have again : place 0 front = ofText (String.ofList (front.flatMap Piece.raw)) := by
    rw [ofText, String.toList_ofList, read]
  rw [again, wholeAlone, List.map_append] at moved
  exact ⟨_, alone, cutOut, ⟨_, wholeAlone⟩, (List.append_inj' moved rfl).1.symm⟩

theorem Lexeme.tokens_of_ofText_eq {text : String} {lexemes : List Lexeme} {finish : Span}
    (whole : ofText text = lexemes ++ [⟨.endOfInput, finish⟩]) :
    Piece.tokens .ordinary text.toList = lexemes.map Lexeme.token := by
  have tokens := map_token_ofText text
  rw [whole, List.map_append] at tokens
  exact (List.append_inj' tokens rfl).1.symm

namespace Lexeme.Excerpt

variable {text : String} {span : Span} {used alone : List Lexeme} {inside : List Char}

private theorem map_token (excerpt : Excerpt text span used inside alone) :
    alone.map Lexeme.token = used.map Lexeme.token := by
  rw [← excerpt.map_shift, List.map_map]
  rfl

theorem isPlain (excerpt : Excerpt text span used inside alone)
    (plain : ∀ lexeme ∈ used, lexeme.token.isPlain = true) :
    ∀ lexeme ∈ alone, lexeme.token.isPlain = true := by
  intro lexeme member
  exact plain (lexeme.mapSpan (.shift span.start))
    (excerpt.map_shift ▸ List.mem_map_of_mem member)

private theorem ofText_append_arrow (excerpt : Excerpt text span used inside alone)
    (plain : ∀ lexeme ∈ used, lexeme.token.isPlain = true) :
    ∃ arrow word finish, ofText (String.ofList inside ++ " > x") =
      (alone ++ [⟨.arrow, arrow⟩, ⟨.word "x", word⟩]) ++ [⟨.endOfInput, finish⟩] := by
  obtain ⟨finish, whole⟩ := excerpt.ofText_eq
  have closed := isClosed_of_place whole (excerpt.isPlain plain)
  have together : (String.ofList inside ++ " > x").toList =
      (String.ofList inside).toList ++ ' ' :: '>' :: ' ' :: "x".toList := by
    simp
  obtain ⟨lexemes, again, followed⟩ := ofText_sign isSign_arrow closed together
  obtain ⟨rfl, -⟩ := List.append_inj' (whole.symm.trans again) rfl
  have behind : ofText "x" = [⟨.word "x", ⟨0, 1⟩⟩, ⟨.endOfInput, ⟨1, 1⟩⟩] := by
    decide +kernel
  simp only [followed, behind, List.append_assoc]
  exact ⟨_, _, _, rfl⟩

end Lexeme.Excerpt

namespace Grammar

/-- The phrase has no token at which another phrase could end. -/
def IsInner (phrase : List Token → α → Prop) : Prop :=
  ∀ ⦃tokens value⦄, phrase tokens value → ∀ token ∈ tokens, token.isBoundary = false

namespace IsInner

variable {phrase : List Token → α → Prop}

theorem star (inner : IsInner phrase) : IsInner (Star phrase) := by
  intro tokens values phrases
  induction phrases with
  | nil => simp
  | cons first _ induction => exact List.forall_mem_append.mpr ⟨inner first, induction⟩

theorem optional (inner : IsInner phrase) : IsInner (Optional phrase) := by
  intro tokens choice phrases
  cases phrases with
  | none => simp
  | some present => exact inner present

theorem behind {sign : Token} (inside : sign.isBoundary = false)
    (inner : IsInner phrase) : IsInner (Behind sign phrase) := by
  rintro _ value ⟨present⟩
  exact List.forall_mem_cons.mpr ⟨inside, inner present⟩

end IsInner

private theorem isInner_segment : IsInner Segment := by
  intro tokens text phrase
  obtain ⟨token, rfl, found⟩ := segment_iff.mp phrase
  exact List.forall_mem_singleton.mpr (Token.isBoundary_of_segment? found)

private theorem isInner_channel : IsInner Channel := by
  intro tokens form phrase
  cases phrase with
  | intro first more index _ _ =>
      refine List.forall_mem_cons.mpr ⟨rfl, List.forall_mem_cons.mpr ⟨rfl, ?_⟩⟩
      refine List.forall_mem_append.mpr ⟨List.forall_mem_append.mpr ⟨?_, ?_⟩, ?_⟩
      · exact isInner_segment first
      · exact (isInner_segment.behind rfl).star more
      · exact (isInner_segment.behind rfl).optional index

private theorem isInner_label : IsInner Label := by
  rintro _ label ⟨-⟩
  simp [Token.isBoundary]

private theorem isInner_argument : IsInner Argument := by
  rintro _ entry ⟨value, -⟩
  simp [Token.isBoundary]

private theorem isInner_module : IsInner Module := by
  intro tokens module phrase
  cases phrase with
  | intro name label arguments _ =>
      refine List.forall_mem_append.mpr ⟨isInner_label.optional label, ?_⟩
      exact List.forall_mem_cons.mpr ⟨rfl, isInner_argument.star arguments⟩

end Grammar

namespace Cursor

/-- What was consumed is the phrase that was passed. -/
theorem Consumes.phrase {cursor after : Cursor} {used : List Lexeme}
    {phrase : List Token → α → Prop} {tokens : List Token} {value : α}
    (consumed : cursor.Consumes used after) (faces : cursor.Faces tokens)
    (passes : Passes phrase tokens value after) :
    phrase (used.map Lexeme.token) value := by
  obtain ⟨front, rest, rfl, passed, facesRest⟩ := passes
  have whole : cursor.remaining.map Lexeme.token = front ++ rest ++ [.endOfInput] := faces.1
  have behind : after.remaining.map Lexeme.token = rest ++ [.endOfInput] := facesRest.1
  rw [consumed.remaining, List.map_append, behind, ← List.append_assoc] at whole
  have same := List.append_cancel_right (List.append_cancel_right whole)
  rwa [same]

end Cursor

/-- The transfer of everything in front of a boundary, as far as the distance. -/
def Transfer.untilBoundary (distance : Nat) (finish : Lexeme)
    (boundary : finish.token.isBoundary = true) (others : List Lexeme) : Transfer where
  move := .shift distance
  move_merge := Span.shift_merge distance
  stops := Token.isBoundary
  stops_boundary := fun _ stops => stops
  finish := finish
  finish_boundary := boundary
  others := others

section Excerpt

variable {text : String} {span : Span} {used alone : List Lexeme} {inside : List Char}
  {passed : List Lexeme} {cursor after : Cursor}

theorem exists_excerpt_of_consumes
    (reached : (Cursor.ofLexemes (Lexeme.ofText text)).Consumes passed cursor)
    (consumed : cursor.Consumes used after) (spanned : Spanned used span)
    (opens : cursor.token.opensPhrase = true) :
    ∃ inside alone, Lexeme.Excerpt text span used inside alone := by
  have remaining := reached.remaining
  rw [Pipeline.remaining_ofText, consumed.remaining, ← List.append_assoc] at remaining
  apply Lexeme.exists_excerpt ⟨passed, after.remaining, remaining.symm⟩ spanned
    consumed.isPlain
  intro first atHead
  obtain ⟨more, rfl⟩ := List.head?_eq_some_iff.mp atHead
  rw [← consumed.before_cons.1]
  exact opens

/-- A part by itself, with a boundary behind it, lies beside the place where it was
read. -/
theorem Lexeme.Excerpt.beside (excerpt : Lexeme.Excerpt text span used inside alone)
    (inner : ∀ token ∈ used.map Lexeme.token, token.isBoundary = false)
    (consumed : cursor.Consumes used after) (ends : after.token.isBoundary = true)
    {start : Cursor} {sign : Lexeme} {others : List Lexeme}
    (remaining : start.remaining = alone ++ sign :: others)
    (boundary : sign.token.isBoundary = true) :
    (Transfer.untilBoundary span.start after.current ends after.ahead).Beside
      start cursor := by
  unfold Transfer.Beside
  rw [remaining, consumed.remaining, ← excerpt.map_shift]
  apply Transfer.carries_append
  · intro lexeme member
    apply inner
    rw [← excerpt.map_token]
    exact List.mem_map_of_mem member
  · exact boundary

end Excerpt

/-- At its span the text has the module, and nothing but that module. -/
def Module.StandsAlone (text : String) (module : Module) : Prop :=
  ∃ inside alone,
    Text.slice? text.toList module.span.start module.span.stop = some inside ∧
      Pipeline.parse .stream (String.ofList inside) =
          .ok ⟨none, none, [alone], none, alone.span⟩ ∧
        alone.mapSpans (.shift module.span.start) = module

/-- At its span the text has the channel.  With an arrow and a module behind it that is
the source of a pipeline. -/
def Channel.StandsAlone (text : String) (channel : Channel) : Prop :=
  ∃ inside whole alone,
    Text.slice? text.toList channel.span.start channel.span.stop = some inside ∧
      Pipeline.parse .stream (String.ofList inside ++ " > x") = .ok whole ∧
        whole.source = some alone ∧
          alone.mapSpan (.shift channel.span.start) = channel

/-- At its span the text has the argument.  Behind the name of a module that is an
argument with the same name and value. -/
def Argument.StandsAlone (text : String) (argument : Argument) : Prop :=
  ∃ inside whole,
    Text.slice? text.toList argument.span.start argument.span.stop = some inside ∧
      Pipeline.parse .stream ("x " ++ String.ofList inside) = .ok whole ∧
        whole.form = ⟨none, none, [⟨"x", none, [argument.entry]⟩], none⟩

/-- Every part of the pipeline is what the text has at its span. -/
structure Pipeline.Excerpted (text : String) (pipeline : Pipeline) : Prop where
  modules : ∀ module ∈ pipeline.modules, module.StandsAlone text
  channels : ∀ channel ∈ pipeline.channels, channel.StandsAlone text
  arguments : ∀ module ∈ pipeline.modules, ∀ argument ∈ module.arguments,
    argument.StandsAlone text

namespace Pipeline

theorem ofCursor_eq_single {start : Cursor} {found : Pipeline} {meaning : Module.Meaning}
    (read : ofCursor start = .ok found)
    (form : found.form = ⟨none, none, [meaning], none⟩) :
    ∃ module after, start.module = .ok (module, after) ∧
      found = ⟨none, none, [module], none, module.span⟩ := by
  obtain ⟨name, cursor₁, source, cursor₂, modules, cursor₃, sink, cursor₄, nameRead,
    sourceRead, modulesRead, sinkRead, -, -, rfl⟩ := ofCursor_eq_ok.mp read
  obtain ⟨rfl, noSource, single, noSink⟩ := Form.mk.inj form
  obtain rfl : source = none := Option.map_eq_none_iff.mp noSource
  obtain rfl : sink = none := Option.map_eq_none_iff.mp noSink
  obtain ⟨module, rfl, -⟩ := List.map_eq_singleton_iff.mp single
  obtain rfl := Cursor.eq_of_definitionName_none nameRead
  obtain rfl := Cursor.eq_of_source_none sourceRead
  obtain rfl := Cursor.eq_of_sink_none sinkRead
  obtain ⟨first, next, more, moduleRead, moreRead, same⟩ := Cursor.modules_eq_ok modulesRead
  obtain ⟨rfl, rfl⟩ := List.cons.inj same
  obtain rfl := Cursor.eq_of_modulesAfterPipe_nil moreRead
  obtain ⟨_, _, _, _, _, -, -, -, written⟩ := Cursor.module_eq_ok moduleRead
  refine ⟨module, cursor₄, moduleRead, ?_⟩
  rw [congrArg Module.span written]

theorem ofCursor_eq_source {start : Cursor} {found : Pipeline} {channel : Channel}
    (read : ofCursor start = .ok found) (unnamed : found.name = none)
    (source : found.source = some channel) :
    ∃ keyword after, start.channelKeyword? = some keyword ∧
      start.channel keyword = .ok (channel, after) := by
  obtain ⟨name, cursor₁, found, cursor₂, modules, cursor₃, sink, cursor₄, nameRead,
    sourceRead, -, -, -, -, rfl⟩ := ofCursor_eq_ok.mp read
  obtain rfl : name = none := unnamed
  obtain rfl : found = some channel := source
  obtain rfl := Cursor.eq_of_definitionName_none nameRead
  rcases Cursor.source_eq_ok.mp sourceRead with
    ⟨-, absent, -⟩ | ⟨keyword, _, next, opening, channelRead, -, present, -⟩
  · cases absent
  · cases present
    exact ⟨keyword, next, opening, channelRead⟩

theorem standsAlone_of_reaches_module {text : String} {module : Module}
    (reaches : (Cursor.ofLexemes (Lexeme.ofText text)).Reaches
      (Cursor.ReadsModule module)) : module.StandsAlone text := by
  obtain ⟨passed, cursor, reached, after, read, ends⟩ := reaches
  have closed := reached.closed (closed_ofText text)
  obtain ⟨used, consumed, laid⟩ := (Cursor.module_reads closed).of_eq_ok read
  obtain ⟨word, onWord⟩ := Cursor.exists_word_of_module read
  obtain ⟨inside, alone, excerpt⟩ :=
    exists_excerpt_of_consumes reached consumed laid.1 (by rw [onWord]; rfl)
  obtain ⟨tokens, faces⟩ := closed
  have phrase := consumed.phrase faces (Cursor.module_sound faces read)
  have definition : Grammar.Definition (used.map Lexeme.token)
      ⟨none, none, [module.meaning], none⟩ := by
    simpa using Grammar.Definition.intro .none .none phrase .nil .none (by simp) (by simp)
  obtain ⟨finish, whole⟩ := excerpt.ofText_eq
  obtain ⟨found, readAlone, form⟩ := parse_of_definition
    ((Lexeme.tokens_of_ofText_eq whole).trans excerpt.map_token) definition
  obtain ⟨single, last, moduleRead, rfl⟩ :=
    ofCursor_eq_single ((parse_stream _).symm.trans readAlone) form
  have beside := excerpt.beside (Grammar.isInner_module phrase) consumed ends
    ((remaining_ofText _).trans whole) rfl
  obtain ⟨_, again, -⟩ := beside.module moduleRead
  obtain ⟨same, -⟩ := Prod.mk.inj (Except.ok.inj (read.symm.trans again))
  exact ⟨inside, single, excerpt.slice_eq, readAlone, same.symm⟩

theorem standsAlone_of_reaches_channel {text : String} {channel : Channel}
    (reaches : (Cursor.ofLexemes (Lexeme.ofText text)).Reaches
      (Cursor.ReadsChannel channel)) : channel.StandsAlone text := by
  obtain ⟨passed, cursor, reached, keyword, after, opening, read, ends⟩ := reaches
  have closed := reached.closed (closed_ofText text)
  obtain ⟨used, consumed, spanned⟩ :=
    (Cursor.channel_reads closed opening).of_eq_ok read
  have onWord := (Cursor.channelKeyword?_eq_some_iff.mp opening).1
  obtain ⟨inside, alone, excerpt⟩ :=
    exists_excerpt_of_consumes reached consumed spanned (by rw [onWord]; rfl)
  obtain ⟨tokens, faces⟩ := closed
  have phrase := consumed.phrase faces (Cursor.channel_sound faces opening read)
  have definition : Grammar.Definition (used.map Lexeme.token ++ [.arrow, .word "x"])
      ⟨none, some channel.form, [⟨"x", none, []⟩], none⟩ := by
    simpa using Grammar.Definition.intro .none (.some (.intro phrase))
      (.intro "x" .none .nil (by simp)) .nil .none (by simp) (by simp)
  obtain ⟨arrow, word, finish, behind⟩ := excerpt.ofText_append_arrow consumed.isPlain
  have spelled := Lexeme.tokens_of_ofText_eq behind
  rw [List.map_append, excerpt.map_token] at spelled
  obtain ⟨whole, readWhole, form⟩ := parse_of_definition spelled definition
  obtain ⟨unnamed, source, -⟩ := Form.mk.inj form
  obtain ⟨single, present, -⟩ := Option.map_eq_some_iff.mp source
  obtain ⟨_, last, openingAgain, channelRead⟩ :=
    ofCursor_eq_source ((parse_stream _).symm.trans readWhole) unnamed present
  rw [List.append_assoc] at behind
  have beside := excerpt.beside (Grammar.isInner_channel phrase) consumed ends
    ((remaining_ofText _).trans behind) rfl
  obtain ⟨_, again, -⟩ := beside.channel openingAgain channelRead
  rw [← beside.channelKeyword?_eq, opening] at openingAgain
  cases openingAgain
  obtain ⟨same, -⟩ := Prod.mk.inj (Except.ok.inj (read.symm.trans again))
  exact ⟨inside, whole, single, excerpt.slice_eq, readWhole, present, same.symm⟩

theorem standsAlone_of_reaches_argument {text : String} {argument : Argument}
    (reaches : (Cursor.ofLexemes (Lexeme.ofText text)).Reaches
      (Cursor.ReadsArgument argument)) : argument.StandsAlone text := by
  obtain ⟨passed, cursor, reached, after, flag, read⟩ := reaches
  have closed := reached.closed (closed_ofText text)
  obtain ⟨used, consumed, spanned⟩ := (Cursor.argument_reads closed flag).of_eq_ok read
  obtain ⟨inside, alone, excerpt⟩ :=
    exists_excerpt_of_consumes reached consumed spanned (by rw [flag]; rfl)
  obtain ⟨tokens, faces⟩ := closed
  have phrase := consumed.phrase faces (Cursor.argument_sound faces flag read).1
  have definition : Grammar.Definition (.word "x" :: used.map Lexeme.token)
      ⟨none, none, [⟨"x", none, [argument.entry]⟩], none⟩ := by
    simpa using Grammar.Definition.intro .none .none
      (.intro "x" .none (.cons phrase .nil) (by simp)) .nil .none (by simp) (by simp)
  obtain ⟨finish, whole⟩ := excerpt.ofText_eq
  have insideTokens := Lexeme.tokens_of_ofText_eq whole
  rw [String.toList_ofList, excerpt.map_token] at insideTokens
  have ends : Text.EndsWord (' ' :: inside) := by
    rintro c ⟨⟩
    decide
  have isWord : Text.IsWord "x".toList := by decide
  have together : ("x " ++ String.ofList inside).toList = "x".toList ++ ' ' :: inside := by
    simp
  have spelled : Piece.tokens .ordinary ("x " ++ String.ofList inside).toList =
      .word "x" :: used.map Lexeme.token := by
    rw [together, Piece.tokens_word isWord ends, Piece.tokens_space, insideTokens]
  obtain ⟨found, readFound, form⟩ := parse_of_definition spelled definition
  exact ⟨inside, found, excerpt.slice_eq, readFound, form⟩

/-- Cut out of the text, a module is read as that module alone, a channel is read as a
source if a module follows, and an argument is read as that of a module in front of
it. -/
theorem excerpted_of_parse (kind : Kind) (text : String) (found : Pipeline)
    (read : parse kind text = .ok found) : found.Excerpted text := by
  have readStream : parse .stream text = .ok found := by
    cases kind with
    | stream => exact read
    | job => exact (parse_job_eq_ok.mp read).1
  have closed := closed_ofText text
  obtain ⟨modules, channels⟩ :=
    reaches_of_ofCursor closed ((parse_stream text).symm.trans readStream)
  constructor
  · exact fun module member => standsAlone_of_reaches_module (modules module member)
  · exact fun channel member => standsAlone_of_reaches_channel (channels channel member)
  · intro module member argument inside
    obtain ⟨passed, cursor, reached, after, moduleRead, -⟩ := modules module member
    exact standsAlone_of_reaches_argument ((Cursor.reaches_of_module (reached.closed closed)
      moduleRead argument inside).behind reached)

/-- An echo of the kind, a label, a quoted value with a character of two bytes, and no
more space than needed. -/
theorem excerpted_of_parse_audit :
    let text := "audit=tap:STREAM:main.2>t:filter --e='a \u00e9'--n =1|log>queue:a:b"
    let found : Pipeline :=
      ⟨some "audit", some ⟨.tap .stream, ["STREAM", "main"], ["2"], ⟨6, 23⟩⟩,
        [⟨"filter", some "t", [⟨"e", "a \u00e9", ⟨33, 43⟩⟩, ⟨"n", "1", ⟨43, 49⟩⟩],
            ⟨24, 49⟩⟩,
          ⟨"log", none, [], ⟨50, 53⟩⟩],
        some ⟨.queue, ["a", "b"], [], ⟨54, 63⟩⟩, ⟨0, 63⟩⟩
    parse .stream text = .ok found ∧ found.Excerpted text := by
  intro text found
  have read : parse .stream text = .ok found := eq_ok_of_toOption (by decide +kernel)
  exact ⟨read, excerpted_of_parse .stream text found read⟩

end Pipeline

end Tapline
