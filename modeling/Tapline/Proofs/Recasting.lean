import Tapline.Proofs.Parallel
import Tapline.Proofs.Turns

/-!
# What readers do not see

A reader takes spans as they are and only merges them, it does not look into a quote that
is never closed, and it does not go beyond the end of the input.  So if lexemes are recast
in these respects, every reader has the outcome that it had before, recast: the same
problem, or the same tree, at the spans that the recast gives them.
-/

namespace Tapline

namespace Token

/-- The token with another value if that has no closing quote. -/
def mapUnterminated (change : String → String) : Token → Token
  | .unterminated value => .unterminated (change value)
  | token => token

variable {change : String → String} {token other : Token}

private theorem mapUnterminated_eq_iff (closed : ∀ value, other ≠ .unterminated value) :
    token.mapUnterminated change = other ↔ token = other := by
  cases token with
  | unterminated value =>
      constructor
      · exact fun same => (closed _ same.symm).elim
      · exact fun same => (closed _ same.symm).elim
  | _ => rfl

theorem mapUnterminated_eq_endOfInput :
    token.mapUnterminated change = .endOfInput ↔ token = .endOfInput :=
  mapUnterminated_eq_iff fun _ => nofun

private theorem ne_unterminated_of_isPlain (plain : token.isPlain = true) (value : String) :
    token ≠ .unterminated value := by
  rintro rfl
  cases plain

end Token

/-- A sign that may follow is the next token, not what an end of the lexemes reads as. -/
theorem Cursor.Opens.advance_token {cursor : Cursor} {text : String} {sign : Token}
    (opens : cursor.Opens text sign) (plain : sign.isPlain = true) :
    cursor.advance.token = sign := by
  obtain ⟨before, current, ahead⟩ := cursor
  obtain ⟨-, next⟩ := opens
  cases ahead with
  | nil =>
      obtain rfl : Token.endOfInput = sign := next
      cases plain
  | cons second ahead => exact next

theorem firstRepeatedLabel?_mapSpans (move : Span → Span) (seen : List String)
    (modules : List Module) :
    firstRepeatedLabel? seen (modules.map (·.mapSpans move)) =
      (firstRepeatedLabel? seen modules).map (·.mapSpans move) := by
  induction modules generalizing seen with
  | nil => rfl
  | cons module modules induction =>
      simp only [List.map_cons, firstRepeatedLabel?, Module.labelName_mapSpans, induction]
      split <;> rfl

/-- A change of the spans, and of the values without a closing quote. -/
structure Recast where
  move : Span → Span
  move_origin : move .origin = .origin
  move_merge : ∀ left right, move (left.merge right) = (move left).merge (move right)
  value : String → String

namespace Recast

def lexeme (recast : Recast) (lexeme : Lexeme) : Lexeme :=
  ⟨lexeme.token.mapUnterminated recast.value, recast.move lexeme.span⟩

/-- The lexemes up to the first end of the input. -/
def lexemes (recast : Recast) : List Lexeme → List Lexeme
  | [] => []
  | first :: rest =>
      recast.lexeme first ::
        if first.token = .endOfInput then [] else recast.lexemes rest

/-- The same place in the lexemes up to the first end of the input. -/
def cursor (recast : Recast) (cursor : Cursor) : Cursor :=
  ⟨recast.move cursor.before, recast.lexeme cursor.current,
    if cursor.token = .endOfInput then [] else recast.lexemes cursor.ahead⟩

def diagnostic (recast : Recast) (diagnostic : Diagnostic) : Diagnostic :=
  ⟨diagnostic.problem, recast.move diagnostic.span⟩

/-- The outcome with its spans moved, where it is said what becomes of a result. -/
def outcome {α β : Type} (recast : Recast) (change : α → β) :
    Except Diagnostic α → Except Diagnostic β
  | .error diagnostic => .error (recast.diagnostic diagnostic)
  | .ok value => .ok (change value)

variable {recast : Recast} {cursor : Cursor}

theorem lexemes_of_proper (recast : Recast) {front : List Lexeme} (rest : List Lexeme)
    {finish : Lexeme}
    (proper : ∀ lexeme ∈ front, lexeme.token ≠ .endOfInput)
    (atEnd : finish.token = .endOfInput) :
    recast.lexemes (front ++ finish :: rest) = (front ++ [finish]).map recast.lexeme := by
  induction front with
  | nil => simp [lexemes, atEnd]
  | cons first front induction =>
      rw [List.forall_mem_cons] at proper
      simp [lexemes, proper.1, induction proper.2]

theorem outcome_bind {α β γ δ : Type} {change : α → β} {final : γ → δ}
    {first : Except Diagnostic α} {next : α → Except Diagnostic γ}
    {copied : Except Diagnostic β} {copy : β → Except Diagnostic δ}
    (same : copied = recast.outcome change first)
    (later : ∀ value, copy (change value) = recast.outcome final (next value)) :
    copied >>= copy = recast.outcome final (first >>= next) := by
  subst same
  cases first with
  | error diagnostic => rfl
  | ok value => exact later value

theorem token_cursor :
    (recast.cursor cursor).token = cursor.token.mapUnterminated recast.value :=
  rfl

theorem token_eq_iff {token : Token} (closed : ∀ value, token ≠ .unterminated value) :
    (recast.cursor cursor).token = token ↔ cursor.token = token :=
  Token.mapUnterminated_eq_iff closed

theorem plain_iff {token : Token} (plain : token.isPlain = true) :
    (recast.cursor cursor).token = token ↔ cursor.token = token :=
  token_eq_iff (Token.ne_unterminated_of_isPlain plain)

theorem atEnd_iff :
    (recast.cursor cursor).token = .endOfInput ↔ cursor.token = .endOfInput :=
  Token.mapUnterminated_eq_endOfInput

theorem merge_cursor (after : Cursor) :
    (recast.cursor cursor).span.merge (recast.cursor after).before =
      recast.move (cursor.span.merge after.before) :=
  (recast.move_merge _ _).symm

/-- No reader goes on over a lexeme that is not plain. -/
theorem ahead_cursor (plain : cursor.token.isPlain = true) :
    (recast.cursor cursor).ahead = recast.lexemes cursor.ahead :=
  if_neg (Token.ne_endOfInput_of_isPlain plain)

theorem advance_cursor (plain : cursor.token.isPlain = true) :
    (recast.cursor cursor).advance = recast.cursor cursor.advance := by
  unfold Cursor.advance
  rw [ahead_cursor plain]
  cases ahead : cursor.ahead with
  | nil => rfl
  | cons next later => rfl

theorem nextToken_cursor (plain : cursor.token.isPlain = true) :
    (recast.cursor cursor).nextToken = cursor.nextToken.mapUnterminated recast.value := by
  unfold Cursor.nextToken
  rw [ahead_cursor plain]
  cases cursor.ahead <;> rfl

theorem opens_iff {text : String} {sign : Token} (plain : sign.isPlain = true) :
    (recast.cursor cursor).Opens text sign ↔ cursor.Opens text sign := by
  unfold Cursor.Opens
  rw [plain_iff rfl]
  refine and_congr_right fun word => ?_
  rw [nextToken_cursor (word ▸ rfl),
    Token.mapUnterminated_eq_iff (Token.ne_unterminated_of_isPlain plain)]

theorem advance_two {text : String} {sign : Token} (plain : sign.isPlain = true)
    (opens : cursor.Opens text sign) :
    (recast.cursor cursor).advance.advance = recast.cursor cursor.advance.advance := by
  have onSign := opens.advance_token plain
  rw [advance_cursor (opens.1 ▸ rfl), advance_cursor (onSign ▸ plain)]

theorem failure_cursor (problem : Problem) :
    (recast.cursor cursor).failure problem =
      recast.diagnostic (cursor.failure problem) :=
  rfl

theorem unexpected_cursor (make : String → Problem) :
    (recast.cursor cursor).unexpected make =
      recast.diagnostic (cursor.unexpected make) := by
  unfold Cursor.unexpected
  rw [failure_cursor, token_cursor]
  cases cursor.token <;> rfl

theorem segment (make : String → Problem) :
    (recast.cursor cursor).segment make =
      recast.outcome (Prod.map id recast.cursor) (cursor.segment make) := by
  unfold Cursor.segment
  have same : (recast.cursor cursor).token.segment? = cursor.token.segment? := by
    rw [token_cursor]
    cases cursor.token <;> rfl
  rw [same]
  cases found : cursor.token.segment? with
  | none => exact congrArg Except.error (unexpected_cursor make)
  | some text =>
      simp only [advance_cursor (Token.isPlain_of_segment? found)]
      rfl

/-- A loop whose turns have recast outcomes has one itself. -/
theorem of_drives {Memory Item : Type} {turn : Turn Memory Item}
    {reader : Memory → Cursor → Except Diagnostic (List Item × Cursor)}
    {change : Item → Item} (drives : turn.Drives reader)
    (turns : ∀ memory cursor, turn memory (recast.cursor cursor) =
      recast.outcome (Option.map (Prod.map change (Prod.map id recast.cursor)))
        (turn memory cursor))
    (memory : Memory) (cursor : Cursor) :
    reader memory (recast.cursor cursor) =
      recast.outcome (Prod.map (List.map change) recast.cursor) (reader memory cursor) := by
  refine drives.induction (motive := fun memory cursor outcome =>
    reader memory (recast.cursor cursor) =
      recast.outcome (Prod.map (List.map change) recast.cursor) outcome) ?_ ?_ ?_ memory
    cursor
  · intro memory cursor diagnostic failed
    rw [drives.unfold, turns, failed]
    rfl
  · intro memory cursor ended
    rw [drives.unfold, turns, ended]
    rfl
  · intro memory cursor item later after next induction
    rw [drives.unfold, turns, next]
    change Prod.map (change item :: ·) id <$> reader later (recast.cursor after) = _
    rw [induction]
    cases reader later after <;> rfl

theorem segmentTurn {separator : Token} (plain : separator.isPlain = true)
    {make : String → Problem} (memory : Unit) (cursor : Cursor) :
    Cursor.segmentTurn separator make memory (recast.cursor cursor) =
      recast.outcome (Option.map (Prod.map id (Prod.map id recast.cursor)))
        (Cursor.segmentTurn separator make memory cursor) := by
  unfold Cursor.segmentTurn
  have here_iff : (recast.cursor cursor).token = separator ↔ cursor.token = separator :=
    plain_iff plain
  by_cases here : cursor.token = separator
  · rw [if_pos here, if_pos (here_iff.mpr here), advance_cursor (here ▸ plain), segment]
    cases cursor.advance.segment make <;> rfl
  · rw [if_neg here, if_neg (mt here_iff.mp here)]
    rfl

theorem segments {separator : Token} {isSeparator : separator.segment? = none}
    (plain : separator.isPlain = true) {make : String → Problem} :
    (recast.cursor cursor).segments separator isSeparator make =
      recast.outcome (Prod.map id recast.cursor)
        (cursor.segments separator isSeparator make) := by
  have loop := Cursor.segmentTurn_drives separator isSeparator make
  have copied : (recast.cursor cursor).segments separator isSeparator make =
      recast.outcome (Prod.map (List.map id) recast.cursor)
        (cursor.segments separator isSeparator make) :=
    of_drives loop (segmentTurn plain) () cursor
  rwa [List.map_id_fun] at copied

theorem channelKeyword?_eq :
    (recast.cursor cursor).channelKeyword? = cursor.channelKeyword? := by
  apply Option.ext
  intro keyword
  rw [Cursor.channelKeyword?_eq_some_iff, Cursor.channelKeyword?_eq_some_iff]
  exact opens_iff rfl

theorem channel {keyword : ChannelKeyword}
    (opening : cursor.channelKeyword? = some keyword) :
    (recast.cursor cursor).channel keyword =
      recast.outcome (Prod.map (·.mapSpan recast.move) recast.cursor)
        (cursor.channel keyword) := by
  have opens := Cursor.channelKeyword?_eq_some_iff.mp opening
  unfold Cursor.channel
  refine outcome_bind ((congrArg _ (advance_two rfl opens)).trans (segment _))
    fun (first, cursor₁) => ?_
  refine outcome_bind (segments rfl) fun (more, cursor₂) => ?_
  refine outcome_bind (segments rfl) fun (index, cursor₃) => ?_
  dsimp only [Prod.map_apply, id]
  rw [merge_cursor]
  split
  · rfl
  · split <;> rfl

theorem label :
    (recast.cursor cursor).label =
      recast.outcome (Prod.map id recast.cursor) cursor.label := by
  by_cases opens : ∃ text, cursor.Opens text .colon
  · obtain ⟨text, opens⟩ := opens
    have copied : (recast.cursor cursor).Opens text .colon := (opens_iff rfl).mpr opens
    simp only [Cursor.label, opens.1, opens.2, copied.1, copied.2]
    cases ChannelKeyword.ofWord? text with
    | some keyword => rfl
    | none =>
        exact congrArg (fun after => Except.ok (some text, after)) (advance_two rfl opens)
  · have unlabelled := not_exists.mp opens
    rw [Cursor.label_eq_ok.mpr (.inr ⟨unlabelled, rfl, rfl⟩)]
    refine Cursor.label_eq_ok.mpr (.inr ⟨fun text copied => ?_, rfl, rfl⟩)
    exact unlabelled text ((opens_iff rfl).mp copied)

theorem moduleName :
    (recast.cursor cursor).moduleName =
      recast.outcome (Prod.map id recast.cursor) cursor.moduleName := by
  by_cases word : ∃ text, cursor.token = .word text
  · obtain ⟨text, word⟩ := word
    have copied : (recast.cursor cursor).token = .word text := (plain_iff rfl).mpr word
    simp only [Cursor.moduleName, word, copied]
    exact congrArg (fun after => Except.ok (text, after)) (advance_cursor (word ▸ rfl))
  · have failed {cursor : Cursor} (noWord : ∀ text, cursor.token ≠ .word text) :
        cursor.moduleName = .error (cursor.unexpected .expectedModuleName) := by
      unfold Cursor.moduleName
      split
      · rename_i text word
        exact (noWord text word).elim
      · rfl
    have noWord := not_exists.mp word
    have noCopy (text : String) : (recast.cursor cursor).token ≠ .word text :=
      mt (plain_iff rfl).mp (noWord text)
    rw [failed noWord, failed noCopy]
    exact congrArg Except.error (unexpected_cursor _)

theorem argument {name : String} (flag : cursor.token = .flag name) :
    (recast.cursor cursor).argument name =
      recast.outcome (Prod.map (·.mapSpan recast.move) recast.cursor)
        (cursor.argument name) := by
  unfold Cursor.argument
  split
  · rfl
  dsimp only
  rw [advance_cursor (flag ▸ rfl)]
  have equals_iff : (recast.cursor cursor.advance).token = .equals ↔
      cursor.advance.token = .equals :=
    plain_iff rfl
  by_cases equals : cursor.advance.token = .equals
  · rw [if_pos equals, if_pos (equals_iff.mpr equals), advance_cursor (equals ▸ rfl)]
    rw [token_cursor, unexpected_cursor]
    cases value : cursor.advance.advance.token with
    | literal value =>
        simp only [Token.mapUnterminated]
        rw [advance_cursor (value ▸ rfl), merge_cursor]
        rfl
    | _ => rfl
  · rw [if_neg equals, if_neg (mt equals_iff.mp equals)]
    exact congrArg Except.error (unexpected_cursor _)

theorem argumentTurn (module : String) (seen : List String) (cursor : Cursor) :
    Cursor.argumentTurn module seen (recast.cursor cursor) =
      recast.outcome
        (Option.map (Prod.map (·.mapSpan recast.move) (Prod.map id recast.cursor)))
        (Cursor.argumentTurn module seen cursor) := by
  have flag_iff (name : String) :
      (recast.cursor cursor).token = .flag name ↔ cursor.token = .flag name :=
    plain_iff rfl
  by_cases found : ∃ name, cursor.token = .flag name
  · obtain ⟨name, flag⟩ := found
    rw [Cursor.argumentTurn_of_flag flag,
      Cursor.argumentTurn_of_flag ((flag_iff name).mpr flag)]
    refine outcome_bind (argument flag) fun (argument, after) => ?_
    dsimp only
    split <;> rfl
  · have noFlag := not_exists.mp found
    rw [Cursor.argumentTurn_of_other noFlag,
      Cursor.argumentTurn_of_other fun name => mt (flag_iff name).mp (noFlag name)]
    rfl

theorem arguments {module : String} {seen : List String} :
    (recast.cursor cursor).arguments module seen =
      recast.outcome (Prod.map (List.map (·.mapSpan recast.move)) recast.cursor)
        (cursor.arguments module seen) :=
  of_drives Cursor.argumentTurn_drives (argumentTurn module) seen cursor

theorem module :
    (recast.cursor cursor).module =
      recast.outcome (Prod.map (·.mapSpans recast.move) recast.cursor) cursor.module := by
  unfold Cursor.module
  refine outcome_bind label fun (label, cursor₁) => ?_
  refine outcome_bind moduleName fun (name, cursor₂) => ?_
  refine outcome_bind arguments fun (arguments, cursor₃) => ?_
  dsimp only [Prod.map_apply, id]
  rw [merge_cursor]
  rfl

theorem moduleTurn (memory : Unit) (cursor : Cursor) :
    Cursor.moduleTurn memory (recast.cursor cursor) =
      recast.outcome
        (Option.map (Prod.map (·.mapSpans recast.move) (Prod.map id recast.cursor)))
        (Cursor.moduleTurn memory cursor) := by
  unfold Cursor.moduleTurn
  have pipe_iff {cursor : Cursor} :
      (recast.cursor cursor).token = .pipe ↔ cursor.token = .pipe :=
    plain_iff rfl
  have arrow_iff {cursor : Cursor} :
      (recast.cursor cursor).token = .arrow ↔ cursor.token = .arrow :=
    plain_iff rfl
  by_cases pipe : cursor.token = .pipe
  · rw [if_pos pipe, if_pos (pipe_iff.mpr pipe), advance_cursor (pipe ▸ rfl)]
    simp only [atEnd_iff, pipe_iff, arrow_iff]
    split
    · rfl
    · rw [module]
      cases cursor.advance.module <;> rfl
  · rw [if_neg pipe, if_neg (mt pipe_iff.mp pipe)]
    rfl

theorem modulesAfterPipe :
    (recast.cursor cursor).modulesAfterPipe =
      recast.outcome (Prod.map (List.map (·.mapSpans recast.move)) recast.cursor)
        cursor.modulesAfterPipe :=
  of_drives Cursor.moduleTurn_drives moduleTurn () cursor

theorem modules :
    (recast.cursor cursor).modules =
      recast.outcome (Prod.map (List.map (·.mapSpans recast.move)) recast.cursor)
        cursor.modules := by
  unfold Cursor.modules
  rw [token_cursor]
  cases cursor.token with
  | endOfInput | pipe => rfl
  | _ =>
      refine outcome_bind module fun (first, cursor₁) => ?_
      exact outcome_bind modulesAfterPipe fun (more, cursor₂) => rfl

theorem definitionName :
    (recast.cursor cursor).definitionName =
      Prod.map id recast.cursor cursor.definitionName := by
  by_cases opens : ∃ text, cursor.Opens text .equals
  · obtain ⟨text, opens⟩ := opens
    have copied : (recast.cursor cursor).Opens text .equals := (opens_iff rfl).mpr opens
    rw [Cursor.definitionName_eq.mpr (.inl ⟨text, opens, rfl, rfl⟩)]
    refine Cursor.definitionName_eq.mpr (.inl ⟨text, copied, rfl, ?_⟩)
    exact (advance_two rfl opens).symm
  · have unnamed := not_exists.mp opens
    rw [Cursor.definitionName_eq.mpr (.inr ⟨unnamed, rfl, rfl⟩)]
    refine Cursor.definitionName_eq.mpr (.inr ⟨fun text copied => ?_, rfl, rfl⟩)
    exact unnamed text ((opens_iff rfl).mp copied)

theorem source :
    (recast.cursor cursor).source =
      recast.outcome (Prod.map (Option.map (·.mapSpan recast.move)) recast.cursor)
        cursor.source := by
  unfold Cursor.source
  rw [channelKeyword?_eq]
  cases opening : cursor.channelKeyword? with
  | none => rfl
  | some keyword =>
      refine outcome_bind (channel opening) fun (channel, cursor₁) => ?_
      dsimp only [Prod.map_apply]
      rw [token_cursor, unexpected_cursor]
      cases here : cursor₁.token with
      | arrow =>
          simp only [Token.mapUnterminated]
          rw [advance_cursor (here ▸ rfl)]
          rfl
      | _ => rfl

theorem sink :
    (recast.cursor cursor).sink =
      recast.outcome (Prod.map (Option.map (·.mapSpan recast.move)) recast.cursor)
        cursor.sink := by
  unfold Cursor.sink
  have arrow_iff : (recast.cursor cursor).token = .arrow ↔ cursor.token = .arrow :=
    plain_iff rfl
  by_cases arrow : cursor.token = .arrow
  · rw [if_pos arrow, if_pos (arrow_iff.mpr arrow)]
    dsimp only
    rw [advance_cursor (arrow ▸ rfl), channelKeyword?_eq, unexpected_cursor]
    simp only [atEnd_iff]
    split
    · rfl
    · cases opening : cursor.advance.channelKeyword? with
      | none => rfl
      | some keyword =>
          refine outcome_bind (channel opening) fun (channel, cursor₁) => ?_
          have kind : (channel.mapSpan recast.move).kind = channel.kind := rfl
          simp only [Prod.map_apply, kind]
          split <;> rfl
  · rw [if_neg arrow, if_neg (mt arrow_iff.mp arrow)]
    rfl

theorem ofCursor :
    Pipeline.ofCursor (recast.cursor cursor) =
      recast.outcome (·.mapSpans recast.move) (Pipeline.ofCursor cursor) := by
  unfold Pipeline.ofCursor
  rw [definitionName]
  obtain ⟨name, cursor₁⟩ := cursor.definitionName
  refine outcome_bind source fun (source, cursor₂) => ?_
  refine outcome_bind modules fun (modules, cursor₃) => ?_
  refine outcome_bind sink fun (sink, cursor₄) => ?_
  dsimp only [Prod.map_apply, id]
  simp only [atEnd_iff, firstRepeatedLabel?_mapSpans, merge_cursor, unexpected_cursor]
  split
  · cases firstRepeatedLabel? [] modules <;> rfl
  · rfl

theorem asJob (pipeline : Pipeline) :
    (pipeline.mapSpans recast.move).asJob =
      recast.outcome (·.mapSpans recast.move) pipeline.asJob := by
  have channels : (pipeline.mapSpans recast.move).channels =
      pipeline.channels.map (·.mapSpan recast.move) := by
    simp [Pipeline.channels, Pipeline.mapSpans, Option.toList_map]
  have modules : (pipeline.mapSpans recast.move).modules =
      pipeline.modules.map (·.mapSpans recast.move) := rfl
  unfold Pipeline.asJob
  rw [channels, modules]
  cases pipeline.channels with
  | cons channel channels => rfl
  | nil =>
      cases pipeline.modules with
      | nil => rfl
      | cons first modules => cases modules <;> rfl

theorem ofLexemes (recast : Recast) (kind : Kind) (lexemes : List Lexeme) :
    Pipeline.ofLexemes kind (recast.lexemes lexemes) =
      recast.outcome (·.mapSpans recast.move) (Pipeline.ofLexemes kind lexemes) := by
  have start : Cursor.ofLexemes (recast.lexemes lexemes) =
      recast.cursor (.ofLexemes lexemes) := by
    have before := recast.move_origin
    cases lexemes with
    | nil =>
        simp only [Recast.cursor, Cursor.ofLexemes, Recast.lexemes, lexeme, before]
        rfl
    | cons first rest =>
        simp only [Recast.cursor, Cursor.ofLexemes, Recast.lexemes, before]
        rfl
  unfold Pipeline.ofLexemes
  rw [start]
  refine outcome_bind ofCursor fun pipeline => ?_
  cases kind with
  | stream => rfl
  | job => exact asJob pipeline

end Recast

end Tapline
