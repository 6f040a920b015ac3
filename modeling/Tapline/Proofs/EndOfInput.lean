import Tapline.Proofs.Recasting

/-!
# The end of the input

Lexemes need not end with an end of the input, and more may follow behind one.  Reading
comes to an end for any of them: it brings the cursor forward step by step, and no loop
takes more turns than there are lexemes.  What follows behind the first end of the input
is not looked at, and without an end of the input nothing is read.
-/

namespace Tapline

namespace Cursor

/-- The cursor is brought there in steps of one lexeme. -/
inductive LeadsTo : Cursor → Cursor → Prop where
  | stay (cursor : Cursor) : LeadsTo cursor cursor
  | step {cursor after : Cursor} : LeadsTo cursor.advance after → LeadsTo cursor after

variable {cursor after last : Cursor}

theorem LeadsTo.trans (first : cursor.LeadsTo after) (second : after.LeadsTo last) :
    cursor.LeadsTo last := by
  induction first with
  | stay => exact second
  | step _ induction => exact .step (induction second)

theorem leadsTo_advance (cursor : Cursor) : cursor.LeadsTo cursor.advance :=
  .step (.stay _)

theorem LeadsTo.ahead_le (leads : cursor.LeadsTo after) :
    after.ahead.length ≤ cursor.ahead.length := by
  induction leads with
  | stay => exact Nat.le_refl _
  | step _ induction => exact Nat.le_trans induction (advance_ahead_le _)

/-- On the last lexeme the cursor stays, so that it only ever finds lexemes that it had
ahead. -/
theorem LeadsTo.remaining_suffix (leads : cursor.LeadsTo after) :
    after.remaining <:+ cursor.remaining := by
  induction leads with
  | stay => exact List.suffix_refl _
  | @step cursor after _ induction =>
      -- A step drops the lexeme that it leaves, or the cursor was on the last one.
      refine induction.trans ?_
      obtain ⟨before, current, ahead⟩ := cursor
      cases ahead with
      | nil => exact List.suffix_refl _
      | cons next ahead => exact List.suffix_cons current (next :: ahead)

theorem segment_leadsTo {make : String → Problem} {text : String}
    (read : cursor.segment make = .ok (text, after)) : cursor.LeadsTo after := by
  obtain ⟨-, rfl⟩ := segment_eq_ok read
  exact leadsTo_advance cursor

theorem leadsTo_of_drives {Memory Item : Type} {turn : Turn Memory Item}
    {reader : Memory → Cursor → Except Diagnostic (List Item × Cursor)}
    (drives : turn.Drives reader)
    (turns : ∀ {memory cursor item later after},
      turn memory cursor = .ok (some (item, later, after)) → cursor.LeadsTo after)
    (memory : Memory) {found : List Item}
    (read : reader memory cursor = .ok (found, after)) : cursor.LeadsTo after := by
  revert found after
  refine drives.induction (motive := fun _ cursor outcome =>
    ∀ {found after}, outcome = .ok (found, after) → cursor.LeadsTo after) ?_ ?_ ?_ memory
    cursor
  · intro memory cursor diagnostic failed found after read
    cases read
  · intro memory cursor ended found after read
    cases read
    exact .stay cursor
  · intro memory cursor item later next goesOn induction found after read
    obtain ⟨⟨more, last⟩, rest, same⟩ := map_eq_ok.mp read
    cases same
    exact (turns goesOn).trans (induction rest)

theorem segments_leadsTo {separator : Token} {isSeparator : separator.segment? = none}
    {make : String → Problem} {texts : List String}
    (read : cursor.segments separator isSeparator make = .ok (texts, after)) :
    cursor.LeadsTo after := by
  refine leadsTo_of_drives (segmentTurn_drives separator isSeparator make) ?_ () read
  intro memory cursor item later after turn
  unfold segmentTurn at turn
  split at turn
  · obtain ⟨⟨text, next⟩, inside, same⟩ := map_eq_ok.mp turn
    cases same
    exact (leadsTo_advance cursor).trans (segment_leadsTo inside)
  · cases turn

theorem channel_leadsTo {keyword : ChannelKeyword} {found : Channel}
    (read : cursor.channel keyword = .ok (found, after)) : cursor.LeadsTo after := by
  obtain ⟨first, cursor₁, more, cursor₂, index, firstRead, moreRead, indexRead, -⟩ :=
    channel_eq_ok.mp read
  have onFirst : cursor.LeadsTo cursor.advance.advance := .step (leadsTo_advance _)
  exact onFirst.trans ((segment_leadsTo firstRead).trans
    ((segments_leadsTo moreRead).trans (segments_leadsTo indexRead)))

theorem label_leadsTo {found : Option String} (read : cursor.label = .ok (found, after)) :
    cursor.LeadsTo after := by
  rcases label_eq_ok.mp read with ⟨-, -, -, -, rfl⟩ | ⟨-, -, rfl⟩
  · exact .step (leadsTo_advance _)
  · exact .stay _

theorem moduleName_leadsTo {name : String} (read : cursor.moduleName = .ok (name, after)) :
    cursor.LeadsTo after := by
  unfold moduleName at read
  split at read
  · cases read
    exact leadsTo_advance cursor
  · cases read

theorem argument_leadsTo {name : String} {found : Argument}
    (read : cursor.argument name = .ok (found, after)) : cursor.LeadsTo after := by
  obtain ⟨-, -, -, -, rfl, -⟩ := argument_eq_ok.mp read
  exact .step (.step (leadsTo_advance _))

theorem arguments_leadsTo {module : String} {seen : List String} {found : List Argument}
    (read : cursor.arguments module seen = .ok (found, after)) : cursor.LeadsTo after := by
  refine leadsTo_of_drives argumentTurn_drives ?_ seen read
  intro seen cursor item later after turn
  by_cases found : ∃ name, cursor.token = .flag name
  · obtain ⟨name, flag⟩ := found
    rw [argumentTurn_of_flag flag] at turn
    obtain ⟨⟨argument, next⟩, inside, goesOn⟩ := bind_eq_ok.mp turn
    split at goesOn
    · cases goesOn
    · cases goesOn
      exact argument_leadsTo inside
  · rw [argumentTurn_of_other (not_exists.mp found)] at turn
    cases turn

theorem module_leadsTo {found : Module} (read : cursor.module = .ok (found, after)) :
    cursor.LeadsTo after := by
  obtain ⟨_, _, _, _, _, labelRead, nameRead, argumentsRead, -⟩ := module_eq_ok read
  exact (label_leadsTo labelRead).trans
    ((moduleName_leadsTo nameRead).trans (arguments_leadsTo argumentsRead))

theorem modulesAfterPipe_leadsTo {found : List Module}
    (read : cursor.modulesAfterPipe = .ok (found, after)) : cursor.LeadsTo after := by
  refine leadsTo_of_drives moduleTurn_drives ?_ () read
  intro memory cursor item later after turn
  unfold moduleTurn at turn
  split at turn
  · split at turn
    · cases turn
    · obtain ⟨⟨module, next⟩, inside, same⟩ := map_eq_ok.mp turn
      cases same
      exact (leadsTo_advance cursor).trans (module_leadsTo inside)
  · cases turn

theorem modules_leadsTo {found : List Module}
    (read : cursor.modules = .ok (found, after)) : cursor.LeadsTo after := by
  obtain ⟨_, _, _, moduleRead, moreRead, -⟩ := modules_eq_ok read
  exact (module_leadsTo moduleRead).trans (modulesAfterPipe_leadsTo moreRead)

theorem definitionName_leadsTo {found : Option String}
    (read : cursor.definitionName = (found, after)) : cursor.LeadsTo after := by
  rcases definitionName_eq.mp read with ⟨-, -, -, rfl⟩ | ⟨-, -, rfl⟩
  · exact .step (leadsTo_advance _)
  · exact .stay _

theorem source_leadsTo {found : Option Channel}
    (read : cursor.source = .ok (found, after)) : cursor.LeadsTo after := by
  rcases source_eq_ok.mp read with ⟨-, -, rfl⟩ | ⟨_, _, _, -, channelRead, -, -, rfl⟩
  · exact .stay _
  · exact (channel_leadsTo channelRead).trans (leadsTo_advance _)

theorem sink_leadsTo {found : Option Channel} (read : cursor.sink = .ok (found, after)) :
    cursor.LeadsTo after := by
  rcases sink_eq_ok.mp read with ⟨-, -, rfl⟩ | ⟨-, _, _, -, channelRead, -⟩
  · exact .stay _
  · exact .step (channel_leadsTo channelRead)

/-- Each loop that begins at the cursor is over within that many turns, with the outcome
of its reader. -/
structure LoopsWithin (limit : Nat) (cursor : Cursor) : Prop where
  segments : ∀ separator isSeparator make,
    (segmentTurn separator make).run? limit () cursor =
      some (cursor.segments separator isSeparator make)
  arguments : ∀ module seen,
    (argumentTurn module).run? limit seen cursor = some (cursor.arguments module seen)
  modules : moduleTurn.run? limit () cursor = some cursor.modulesAfterPipe

theorem loopsWithin {limit : Nat} (enough : cursor.ahead.length < limit) :
    cursor.LoopsWithin limit where
  segments separator isSeparator make :=
    (segmentTurn_drives separator isSeparator make).run?_eq () enough
  arguments _ seen := argumentTurn_drives.run?_eq seen enough
  modules := moduleTurn_drives.run?_eq () enough

end Cursor

namespace Pipeline

theorem exists_endOfInput_of_ofCursor {start : Cursor} {found : Pipeline}
    (read : ofCursor start = .ok found) :
    ∃ lexeme ∈ start.remaining, lexeme.token = .endOfInput := by
  obtain ⟨_, _, _, _, _, _, _, last, nameRead, sourceRead, modulesRead, sinkRead, atEnd,
    -⟩ := ofCursor_eq_ok.mp read
  have leads := (Cursor.definitionName_leadsTo nameRead).trans
    ((Cursor.source_leadsTo sourceRead).trans
      ((Cursor.modules_leadsTo modulesRead).trans (Cursor.sink_leadsTo sinkRead)))
  have member : last.current ∈ start.remaining :=
    leads.remaining_suffix.subset (List.mem_cons_self ..)
  exact ⟨last.current, member, atEnd⟩

private theorem ofLexemes_nil (kind : Kind) :
    ofLexemes kind [] = .error ⟨.emptyPipeline, .origin⟩ :=
  rfl

private theorem exists_error_of_proper (kind : Kind) {lexemes : List Lexeme}
    (proper : ∀ lexeme ∈ lexemes, lexeme.token ≠ .endOfInput) :
    ∃ diagnostic, ofLexemes kind lexemes = .error diagnostic := by
  cases lexemes with
  | nil => exact ⟨_, ofLexemes_nil kind⟩
  | cons first rest =>
      cases read : ofLexemes kind (first :: rest) with
      | error diagnostic => exact ⟨diagnostic, rfl⟩
      | ok found =>
          obtain ⟨pipeline, whole, -⟩ := bind_eq_ok.mp read
          obtain ⟨lexeme, member, atEnd⟩ := exists_endOfInput_of_ofCursor whole
          exact (proper lexeme member atEnd).elim

theorem ofLexemes_cut (kind : Kind) {front rest : List Lexeme} {finish : Lexeme}
    (proper : ∀ lexeme ∈ front, lexeme.token ≠ .endOfInput)
    (atEnd : finish.token = .endOfInput) :
    ofLexemes kind (front ++ finish :: rest) = ofLexemes kind (front ++ [finish]) := by
  let same : Recast := ⟨id, rfl, fun _ _ => rfl, id⟩
  have lexeme : same.lexeme = id := by
    funext lexeme
    obtain ⟨token, span⟩ := lexeme
    cases token <;> rfl
  have cut := same.lexemes_of_proper rest proper atEnd
  rw [lexeme, List.map_id] at cut
  have copied := same.ofLexemes kind (front ++ finish :: rest)
  have mapSpans : (fun pipeline : Pipeline => pipeline.mapSpans same.move) = id :=
    mapSpans_id
  rw [cut, mapSpans] at copied
  rw [copied]
  cases ofLexemes kind (front ++ finish :: rest) <;> rfl

/-- Whatever lexemes there are, the loops that the first one leads to are over
within one turn more than there are lexemes.  Reading depends on the lexemes up to the
first end of the input only, and it fails if there is none. -/
theorem ofLexemes_upToEnd (kind : Kind) (lexemes : List Lexeme) :
    (∀ cursor, (Cursor.ofLexemes lexemes).LeadsTo cursor →
      cursor.LoopsWithin (lexemes.length + 1)) ∧
    (∀ front finish rest, lexemes = front ++ finish :: rest →
      finish.token = .endOfInput → (∀ lexeme ∈ front, lexeme.token ≠ .endOfInput) →
        ofLexemes kind lexemes = ofLexemes kind (front ++ [finish])) ∧
    ((∀ lexeme ∈ lexemes, lexeme.token ≠ .endOfInput) →
      ∃ diagnostic, ofLexemes kind lexemes = .error diagnostic) := by
  refine ⟨fun cursor leads => Cursor.loopsWithin ?_, ?_, exists_error_of_proper kind⟩
  · have ahead : (Cursor.ofLexemes lexemes).ahead.length ≤ lexemes.length := by
      cases lexemes with
      | nil => exact Nat.le_refl _
      | cons first rest => exact Nat.le_succ _
    exact Nat.lt_succ_of_le (Nat.le_trans leads.ahead_le ahead)
  · rintro front finish rest rfl atEnd proper
    exact ofLexemes_cut kind proper atEnd

/-- Lexemes behind the end of the input, and a pipe as the last of all lexemes. -/
theorem ofLexemes_upToEnd_log :
    let log : Lexeme := ⟨.word "log", ⟨0, 3⟩⟩
    let pipe : Lexeme := ⟨.pipe, ⟨4, 5⟩⟩
    let finish : Lexeme := ⟨.endOfInput, ⟨3, 3⟩⟩
    let found : Pipeline :=
      ⟨none, none, [⟨"log", none, [], ⟨0, 3⟩⟩], none, ⟨0, 3⟩⟩
    ofLexemes .job [log, finish, pipe, finish, log] = .ok found ∧
      ∃ diagnostic, ofLexemes .stream [log, pipe] = .error diagnostic := by
  intro log pipe finish found
  have read : ofLexemes .job [log, finish] = .ok found :=
    eq_ok_of_toOption (by decide +kernel)
  refine ⟨?_, (ofLexemes_upToEnd .stream [log, pipe]).2.2 ?_⟩
  · rw [← read]
    exact (ofLexemes_upToEnd .job [log, finish, pipe, finish, log]).2.1 [log] finish
      [pipe, finish, log] rfl rfl (by simp [log])
  · simp [log, pipe]

end Pipeline

end Tapline
