import Tapline.Proofs.Parallel
import Tapline.Proofs.Positions

/-!
# Pipelines behind one another

A pipe between two texts joins the pipelines that they spell.  The lexemes in front of
the pipe are those of the first text, and the ones behind it are those of the second,
moved as far as it was moved.  So the modules of the second pipeline follow those of the
first, and what can go wrong is that both use a label.
-/

namespace Tapline

private theorem firstRepeatedLabel?_append {seen : List String} {modules : List Module}
    (fresh : firstRepeatedLabel? seen modules = none) (more : List Module) :
    firstRepeatedLabel? seen (modules ++ more) =
      firstRepeatedLabel? ((modules.map Module.labelName).reverse ++ seen) more := by
  fun_induction firstRepeatedLabel? seen modules with
  | case1 => rfl
  | case2 => cases fresh
  | case3 seen module modules new induction =>
      rw [List.cons_append, firstRepeatedLabel?, if_neg new, induction fresh]
      simp

/-- Distinct modules repeat a label only if it was used before them. -/
theorem firstRepeatedLabel?_eq_find? {passed used : List String} {modules : List Module}
    (distinct : (modules.map Module.labelName).Nodup)
    (apart : ∀ module ∈ modules, module.labelName ∉ passed) :
    firstRepeatedLabel? (passed ++ used) modules =
      modules.find? (·.labelName ∈ used) := by
  induction modules generalizing passed with
  | nil => rfl
  | cons module modules induction =>
      rw [List.map_cons, List.nodup_cons] at distinct
      rw [List.forall_mem_cons] at apart
      by_cases repeated : module.labelName ∈ used
      · rw [firstRepeatedLabel?, if_pos (List.mem_append_right _ repeated),
          List.find?_cons_of_pos (by simpa using repeated)]
      · have new : module.labelName ∉ passed ++ used := by simp [apart.1, repeated]
        rw [firstRepeatedLabel?, if_neg new,
          List.find?_cons_of_neg (by simpa using repeated), ← List.cons_append]
        apply induction distinct.2
        intro other member
        rw [List.mem_cons, not_or]
        refine ⟨?_, apart.2 other member⟩
        intro same
        exact distinct.1 (same ▸ List.mem_map_of_mem member)

/-- Behind modules whose labels are distinct, the first of others that is refused has a
label of theirs. -/
theorem firstRepeatedLabel?_append_eq_find? {modules more : List Module}
    (fresh : firstRepeatedLabel? [] modules = none)
    (distinct : firstRepeatedLabel? [] more = none) :
    firstRepeatedLabel? [] (modules ++ more) =
      more.find? (·.labelName ∈ modules.map Module.labelName) := by
  have apart := (firstRepeatedLabel?_eq_none.mp distinct).1
  have found (used : List String) :
      firstRepeatedLabel? ([] ++ used) more = more.find? (·.labelName ∈ used) :=
    firstRepeatedLabel?_eq_find? apart fun _ _ => List.not_mem_nil
  rw [firstRepeatedLabel?_append fresh, List.append_nil]
  simpa using found (modules.map Module.labelName).reverse

theorem Lexeme.isClosed_of_place {offset : Nat} {pieces : List Piece}
    {lexemes : List Lexeme} {finish : Lexeme}
    (placed : place offset pieces = lexemes ++ [finish])
    (plain : ∀ lexeme ∈ lexemes, lexeme.token.isPlain = true) :
    ∀ piece ∈ pieces, piece.isClosed = true := by
  have tokens := map_token_place offset pieces
  rw [placed, List.map_append] at tokens
  obtain ⟨tokens, -⟩ := List.append_inj' tokens rfl
  intro piece member
  cases piece with
  | blank raw => rfl
  | spelling raw token =>
      have inside : token ∈ pieces.filterMap Piece.token? :=
        List.mem_filterMap.mpr ⟨_, member, rfl⟩
      rw [← tokens] at inside
      obtain ⟨lexeme, present, rfl⟩ := List.mem_map.mp inside
      have plainToken := plain lexeme present
      generalize lexeme.token = token at plainToken
      cases token with
      | unterminated => cases plainToken
      | _ => rfl

/-- The transfer of everything in front of the end of the input. -/
def Transfer.untilEnd (move : Span → Span)
    (move_merge : ∀ left right, move (left.merge right) = (move left).merge (move right))
    (finish : Lexeme) (boundary : finish.token.isBoundary = true)
    (others : List Lexeme) : Transfer where
  move := move
  move_merge := move_merge
  stops := (· = .endOfInput)
  stops_boundary := by
    intro token atEnd
    rw [of_decide_eq_true atEnd]
    rfl
  finish := finish
  finish_boundary := boundary
  others := others

namespace Cursor

private theorem remaining_advance {cursor : Cursor} (more : cursor.ahead ≠ []) :
    cursor.advance.remaining = cursor.ahead := by
  unfold advance
  cases ahead : cursor.ahead with
  | nil => exact (more ahead).elim
  | cons next later => rfl

end Cursor

theorem Transfer.Beside.remaining_of_stops {transfer : Transfer} {first second : Cursor}
    (beside : transfer.Beside first second)
    (stops : transfer.stops first.token = true) :
    second.remaining = transfer.finish :: transfer.others := by
  unfold Beside at beside
  generalize second.remaining = copies at beside ⊢
  obtain ⟨before, current, ahead⟩ := first
  cases beside with
  | finish => rfl
  | step goesOn => cases goesOn.symm.trans stops

namespace Pipeline

/-- Reading does not end where the first pipeline did.  It goes on with the modules
behind the pipe. -/
theorem ofCursor_before {pipe : Lexeme} {boundary : pipe.token.isBoundary = true}
    {others : List Lexeme} {alone start : Cursor} {first : Pipeline}
    (beside : (Transfer.untilEnd id (fun _ _ => rfl) pipe boundary others).Beside
      alone start)
    (read : ofCursor alone = .ok first) (noSink : first.sink = none) :
    ∃ cursor₁ cursor₂, ∃ last : Cursor, start.definitionName = (first.name, cursor₁) ∧
      cursor₁.source = .ok (first.source, cursor₂) ∧
        cursor₂.modules = Prod.map (first.modules ++ ·) id <$> last.modulesAfterPipe ∧
          last.remaining = pipe :: others := by
  obtain ⟨name, alone₁, source, alone₂, modules, alone₃, sink, alone₄, nameRead,
    sourceRead, modulesRead, sinkRead, atEnd, -, rfl⟩ := ofCursor_eq_ok.mp read
  obtain rfl : sink = none := noSink
  obtain ⟨cursor₁, nameCopied, beside₁⟩ := beside.definitionName nameRead
  obtain ⟨cursor₂, sourceCopied, beside₂⟩ := beside₁.source rfl sourceRead
  obtain ⟨last, modulesCopied, inStep⟩ := beside₂.modules rfl modulesRead
  have stops : alone₃.token = .endOfInput := by
    rwa [← Cursor.eq_of_sink_none sinkRead]
  refine ⟨cursor₁, cursor₂, last, nameCopied, ?_, ?_, ?_⟩
  · simpa [Transfer.untilEnd] using sourceCopied
  · simpa [Transfer.untilEnd] using modulesCopied
  · exact inStep.beside.remaining_of_stops (decide_eq_true stops)

theorem modules_sink_behind {move : Span → Span}
    {move_merge : ∀ left right, move (left.merge right) = (move left).merge (move right)}
    {finish : Span} {alone alone₁ alone₂ start : Cursor} {modules : List Module}
    {sink : Option Channel}
    (beside : (Transfer.untilEnd move move_merge ⟨.endOfInput, finish⟩ rfl []).Beside
      alone start)
    (modulesRead : alone.modules = .ok (modules, alone₁))
    (sinkRead : alone₁.sink = .ok (sink, alone₂)) (atEnd : alone₂.token = .endOfInput) :
    ∃ cursor₁ last, start.modules = .ok (modules.map (·.mapSpans move), cursor₁) ∧
      cursor₁.sink = .ok (sink.map (·.mapSpan move), last) ∧
        last.token = .endOfInput ∧ last.before = move alone₂.before := by
  have keeps {token : Token} (proper : token ≠ .endOfInput) :
      (Transfer.untilEnd move move_merge ⟨.endOfInput, finish⟩ rfl []).Keeps token :=
    ⟨decide_eq_false proper, proper.symm⟩
  obtain ⟨cursor₁, modulesCopied, inStep₁⟩ := beside.modules rfl modulesRead
  obtain ⟨last, sinkCopied, inStep⟩ := inStep₁.sink (keeps nofun) sinkRead
  obtain ⟨_, next, _, -, laterRead, -⟩ := Cursor.modules_eq_ok modulesRead
  have pipe_iff : cursor₁.token = .pipe ↔ alone₁.token = .pipe :=
    inStep₁.beside.token_iff_of_keeps (keeps nofun)
  have elsewhere : cursor₁.token ≠ .pipe :=
    mt pipe_iff.mp (Cursor.token_ne_pipe_of_modulesAfterPipe laterRead)
  refine ⟨cursor₁, last, ?_, sinkCopied, ?_, inStep.before⟩
  · rw [modulesCopied, Cursor.modulesAfterPipe_nil elsewhere]
    simp [Functor.map, Except.map, Transfer.untilEnd]
  · have remaining := inStep.beside.remaining_of_stops (decide_eq_true atEnd)
    exact congrArg Lexeme.token (List.cons.inj remaining).1

/-- Behind the pipe the second pipeline is read as at the beginning of a text. -/
theorem ofCursor_behind {move : Span → Span}
    {move_merge : ∀ left right, move (left.merge right) = (move left).merge (move right)}
    {finish : Span} {alone start : Cursor} {second : Pipeline}
    (beside : (Transfer.untilEnd move move_merge ⟨.endOfInput, finish⟩ rfl []).Beside
      alone start)
    (read : ofCursor alone = .ok second) (noName : second.name = none)
    (noSource : second.source = none) :
    ∃ cursor₁ last, start.modules = .ok ((second.mapSpans move).modules, cursor₁) ∧
      cursor₁.sink = .ok ((second.mapSpans move).sink, last) ∧
        last.token = .endOfInput := by
  obtain ⟨name, alone₁, source, alone₂, modules, alone₃, sink, alone₄, nameRead,
    sourceRead, modulesRead, sinkRead, atEnd, -, rfl⟩ := ofCursor_eq_ok.mp read
  obtain rfl : name = none := noName
  obtain rfl : source = none := noSource
  obtain rfl := Cursor.eq_of_definitionName_none nameRead
  obtain rfl := Cursor.eq_of_source_none sourceRead
  obtain ⟨cursor₁, last, modulesCopied, sinkCopied, ends, -⟩ :=
    modules_sink_behind beside modulesRead sinkRead atEnd
  exact ⟨cursor₁, last, modulesCopied, sinkCopied, ends⟩

theorem parse_stream (text : String) :
    parse .stream text = ofCursor (.ofLexemes (Lexeme.ofText text)) :=
  ofLexemes_stream _

private theorem isPlain_of_parse {kind : Kind} {text : String} {found : Pipeline}
    (read : parse kind text = .ok found) {lexemes : List Lexeme} {finish : Lexeme}
    (whole : Lexeme.ofText text = lexemes ++ [finish]) :
    ∀ lexeme ∈ lexemes, lexeme.token.isPlain = true := by
  obtain ⟨used, same, -, plain, -⟩ := exists_plain_of_parse read
  obtain ⟨rfl, -⟩ := List.append_inj' (whole.symm.trans same) rfl
  exact plain

theorem isClosed_of_parse {kind : Kind} {text : String} {found : Pipeline}
    (read : parse kind text = .ok found) :
    ∀ piece ∈ Piece.ofText .ordinary text.toList, piece.isClosed = true := by
  obtain ⟨lexemes, whole, -⟩ := Lexeme.exists_tiling text
  exact Lexeme.isClosed_of_place whole (isPlain_of_parse read whole)

/-- A text that has been read lies beside the same lexemes with something else than the
end of the input behind them. -/
theorem beside_of_parse {kind : Kind} {text : String} {found : Pipeline}
    (read : parse kind text = .ok found) {lexemes : List Lexeme} {last : Lexeme}
    (whole : Lexeme.ofText text = lexemes ++ [last]) (atEnd : last.token = .endOfInput)
    (move : Span → Span)
    (move_merge : ∀ left right, move (left.merge right) = (move left).merge (move right))
    (finish : Lexeme) (boundary : finish.token.isBoundary = true) (others : List Lexeme)
    {cursor : Cursor}
    (remaining : cursor.remaining =
      lexemes.map (·.mapSpan move) ++ finish :: others) :
    (Transfer.untilEnd move move_merge finish boundary others).Beside
      (.ofLexemes (Lexeme.ofText text)) cursor := by
  rw [Transfer.Beside, remaining_ofText, whole, remaining]
  apply Transfer.carries_append
  · intro lexeme member
    have plain := isPlain_of_parse read whole lexeme member
    exact decide_eq_false (Token.ne_endOfInput_of_isPlain plain)
  · exact decide_eq_true atEnd

/-- What is read from two texts with a pipe between them, before and behind the pipe,
and when it is refused. -/
theorem parse_pipe {left right : String} {first second : Pipeline}
    (readFirst : parse .stream left = .ok first) (noSink : first.sink = none)
    (readSecond : parse .stream right = .ok second) (noName : second.name = none)
    (noSource : second.source = none) :
    let moved := second.mapSpans (.shift (left.utf8ByteSize + 3))
    ∃ span, parse .stream (left ++ " | " ++ right) =
      match firstRepeatedLabel? [] (first.modules ++ moved.modules) with
      | some module => .error ⟨.duplicateLabel module.labelName, module.span⟩
      | none => .ok ⟨first.name, first.source, first.modules ++ moved.modules,
          moved.sink, span⟩ := by
  intro moved
  obtain ⟨lexemes, alone, combined⟩ :=
    Lexeme.ofText_pipe (isClosed_of_parse readFirst) right
  obtain ⟨later, aloneRight, -⟩ := Lexeme.exists_tiling right
  let distance := left.utf8ByteSize + 3
  let sign : Lexeme := ⟨.pipe, ⟨left.utf8ByteSize + 1, left.utf8ByteSize + 2⟩⟩
  let behind : List Lexeme := (Lexeme.ofText right).map (·.mapSpan (.shift distance))
  have both : (Cursor.ofLexemes (Lexeme.ofText (left ++ " | " ++ right))).remaining =
      lexemes.map (·.mapSpan id) ++ sign :: behind :=
    (remaining_ofText _).trans (combined.trans (by simp [sign, behind, distance]))
  obtain ⟨cursor₁, cursor₂, last, nameRead, sourceRead, moreRead, atPipe⟩ :=
    ofCursor_before (beside_of_parse readFirst alone rfl id (fun _ _ => rfl) sign rfl
      behind both) ((parse_stream left).symm.trans readFirst) noSink
  obtain ⟨onPipe, ahead⟩ := List.cons.inj atPipe
  have pipe : last.token = .pipe := congrArg Lexeme.token onPipe
  let finish : Span := (Span.mk right.utf8ByteSize right.utf8ByteSize).shift distance
  have behindEnds : behind =
      later.map (·.mapSpan (.shift distance)) ++ ⟨.endOfInput, finish⟩ :: [] := by
    simp [behind, aloneRight, Lexeme.mapSpan, finish]
  have afterPipe : last.advance.remaining = behind := by
    rw [← ahead]
    apply Cursor.remaining_advance
    simp [ahead, behindEnds]
  obtain ⟨cursor₃, cursor₄, laterRead, sinkRead, atEnd⟩ :=
    ofCursor_behind (beside_of_parse readSecond aloneRight rfl (.shift distance)
      (Span.shift_merge distance) ⟨.endOfInput, finish⟩ rfl []
      (afterPipe.trans behindEnds)) ((parse_stream right).symm.trans readSecond) noName
      noSource
  have modulesRead : cursor₂.modules = .ok (first.modules ++ moved.modules, cursor₃) := by
    rw [moreRead, Cursor.modulesAfterPipe_of_modules pipe laterRead]
    rfl
  let start := Cursor.ofLexemes (Lexeme.ofText (left ++ " | " ++ right))
  refine ⟨start.span.merge cursor₄.before, ?_⟩
  rw [parse_stream]
  exact ofCursor_of_read nameRead sourceRead modulesRead sinkRead atEnd

/-- The pipeline that goes through the one and then through the other. -/
def join (first second : Pipeline) : Pipeline where
  name := first.name
  source := first.source
  modules := first.modules ++ second.modules
  sink := second.sink
  span := ⟨first.span.start, second.span.stop⟩

private theorem span_of_parse_pipe {left right : String} {first second both : Pipeline}
    (readFirst : parse .stream left = .ok first)
    (readSecond : parse .stream right = .ok second)
    (readBoth : parse .stream (left ++ " | " ++ right) = .ok both) :
    both.span =
      ⟨first.span.start, second.span.stop + (left.utf8ByteSize + 3)⟩ := by
  obtain ⟨before, head, _, aloneLeft, atHead, -, firstSpan⟩ :=
    (placed_of_parse _ _ _ readFirst).whole
  obtain ⟨behind, _, last, aloneRight, -, atLast, secondSpan⟩ :=
    (placed_of_parse _ _ _ readSecond).whole
  obtain ⟨whole, _, _, together, atStart, atStop, span⟩ :=
    (placed_of_parse _ _ _ readBoth).whole
  obtain ⟨lexemes, alone, combined⟩ :=
    Lexeme.ofText_pipe (isClosed_of_parse readFirst) right
  obtain ⟨rfl, -⟩ := List.append_inj' (aloneLeft.symm.trans alone) rfl
  have parts := together.symm.trans combined
  rw [aloneRight, List.map_append, ← List.cons_append, ← List.append_assoc] at parts
  obtain ⟨rfl, -⟩ := List.append_inj' parts rfl
  rw [List.head?_append, atHead] at atStart
  rw [List.getLast?_append, List.getLast?_cons, List.getLast?_map, atLast] at atStop
  cases atStart
  cases atStop
  rw [span, firstSpan, secondSpan]
  rfl

theorem firstRepeatedLabel?_of_parse {text : String} {found : Pipeline}
    (read : parse .stream text = .ok found) :
    firstRepeatedLabel? [] found.modules = none := by
  obtain ⟨name, _, source, _, modules, _, sink, _, -, -, -, -, -, distinct, rfl⟩ :=
    ofCursor_eq_ok.mp ((parse_stream text).symm.trans read)
  exact distinct

private theorem labels_mapSpans (move : Span → Span) (pipeline : Pipeline) :
    (pipeline.mapSpans move).labels = pipeline.labels := by
  simp [labels, mapSpans, Function.comp_def]

/-- A pipe between two texts joins their pipelines, the second one as far behind as its
text, if no label of the second is one of the first.  Otherwise the first module whose
label is one of them is refused. -/
theorem parse_append_pipe {left right : String} {first second : Pipeline}
    (readFirst : parse .stream left = .ok first) (noSink : first.sink = none)
    (readSecond : parse .stream right = .ok second) (noName : second.name = none)
    (noSource : second.source = none) :
    let moved := second.mapSpans (.shift (left.utf8ByteSize + 3))
    ((∃ both, parse .stream (left ++ " | " ++ right) = .ok both) ↔
      ∀ module ∈ second.modules, module.labelName ∉ first.labels) ∧
    parse .stream (left ++ " | " ++ right) =
      match moved.modules.find? (·.labelName ∈ first.labels) with
      | none => .ok (first.join moved)
      | some module => .error ⟨.duplicateLabel module.labelName, module.span⟩ := by
  intro moved
  have labels : moved.modules.map Module.labelName = second.labels :=
    second.labels_mapSpans _
  have distinct : firstRepeatedLabel? [] moved.modules = none := by
    rw [firstRepeatedLabel?_eq_none, labels]
    exact ⟨(firstRepeatedLabel?_eq_none.mp (firstRepeatedLabel?_of_parse readSecond)).1,
      fun _ _ => List.not_mem_nil⟩
  have repeated : firstRepeatedLabel? [] (first.modules ++ moved.modules) =
      moved.modules.find? (·.labelName ∈ first.labels) :=
    firstRepeatedLabel?_append_eq_find? (firstRepeatedLabel?_of_parse readFirst) distinct
  have none_iff : moved.modules.find? (·.labelName ∈ first.labels) = none ↔
      ∀ module ∈ second.modules, module.labelName ∉ first.labels := by
    simp only [List.find?_eq_none, decide_eq_true_eq, moved, mapSpans, List.forall_mem_map,
      Module.labelName_mapSpans]
  obtain ⟨span, read⟩ := parse_pipe readFirst noSink readSecond noName noSource
  rw [repeated] at read
  rw [← none_iff]
  cases refused : moved.modules.find? (·.labelName ∈ first.labels) with
  | some module =>
      rw [refused] at read
      exact ⟨by simp [read], read⟩
  | none =>
      rw [refused] at read
      obtain rfl : span = ⟨first.span.start, moved.span.stop⟩ :=
        span_of_parse_pipe readFirst readSecond read
      exact ⟨by simp [read], read⟩

/-- A value with a pipe and a character of two bytes in front of the pipe, and a label
that is used before and behind it. -/
theorem parse_append_pipe_audit :
    let left := "audit = tap:main.2 > t: filter --e='\u00e9 | x'"
    let source : Channel := ⟨.tap .stream, ["main"], ["2"], ⟨8, 18⟩⟩
    let filter : Module := ⟨"filter", some "t", [⟨"e", "\u00e9 | x", ⟨31, 43⟩⟩], ⟨21, 43⟩⟩
    let first : Pipeline := ⟨some "audit", some source, [filter], none, ⟨0, 43⟩⟩
    let second : Pipeline := ⟨none, none, [⟨"log", none, [], ⟨0, 3⟩⟩],
      some ⟨.queue, ["out"], [], ⟨6, 15⟩⟩, ⟨0, 15⟩⟩
    let third : Pipeline := ⟨none, none, [⟨"log", none, [], ⟨0, 3⟩⟩,
      ⟨"x", some "t", [], ⟨6, 10⟩⟩], none, ⟨0, 10⟩⟩
    parse .stream left = .ok first ∧ parse .stream "log > queue:out" = .ok second ∧
      parse .stream "log | t: x" = .ok third ∧
      parse .stream (left ++ " | " ++ "log > queue:out") =
        .ok ⟨some "audit", some source, [filter, ⟨"log", none, [], ⟨46, 49⟩⟩],
          some ⟨.queue, ["out"], [], ⟨52, 61⟩⟩, ⟨0, 61⟩⟩ ∧
      parse .stream (left ++ " | " ++ "log | t: x") =
        .error ⟨.duplicateLabel "t", ⟨52, 56⟩⟩ := by
  intro left source filter first second third
  have readFirst : parse .stream left = .ok first := eq_ok_of_toOption (by decide +kernel)
  have readSecond : parse .stream "log > queue:out" = .ok second :=
    eq_ok_of_toOption (by decide +kernel)
  have readThird : parse .stream "log | t: x" = .ok third :=
    eq_ok_of_toOption (by decide +kernel)
  exact ⟨readFirst, readSecond, readThird,
    (parse_append_pipe readFirst rfl readSecond rfl rfl).2,
    (parse_append_pipe readFirst rfl readThird rfl rfl).2⟩

end Pipeline

end Tapline
