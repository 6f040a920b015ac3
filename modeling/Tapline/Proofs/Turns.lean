import Tapline.Proofs.Inversion

/-!
# Loops turn by turn

Three readers are loops: over the segments of a channel, the arguments of a module, and
the modules behind pipes.  A loop is one turn repeated until the turn ends it, which need
not happen where the cursor comes to rest on the last lexeme.  But a turn that goes on
has brought the cursor forward.  So each loop is over within as many turns as there are
lexemes at and ahead of the cursor, with the outcome of its reader.
-/

namespace Tapline

/-- One turn of a loop, from what the loop remembers and from the cursor.  It either ends
the loop, or it reads an item and says where and with what memory the loop goes on. -/
abbrev Turn (Memory Item : Type) : Type :=
  Memory → Cursor → Except Diagnostic (Option (Item × Memory × Cursor))

namespace Turn

variable {Memory Item : Type} {turn : Turn Memory Item}
  {reader : Memory → Cursor → Except Diagnostic (List Item × Cursor)}

/-- Repeats the turn until the loop is over.  There is no outcome if that takes more turns
than the limit. -/
def run? (turn : Turn Memory Item) :
    Nat → Memory → Cursor → Option (Except Diagnostic (List Item × Cursor))
  | 0, _, _ => none
  | limit + 1, memory, cursor =>
      match turn memory cursor with
      | .error diagnostic => some (.error diagnostic)
      | .ok none => some (.ok ([], cursor))
      | .ok (some (item, later, after)) =>
          (turn.run? limit later after).map (Prod.map (item :: ·) id <$> ·)

/-- The reader is the loop over the turn, and a turn that goes on leaves less ahead. -/
structure Drives (turn : Turn Memory Item)
    (reader : Memory → Cursor → Except Diagnostic (List Item × Cursor)) : Prop where
  unfold : ∀ memory cursor, reader memory cursor =
    match turn memory cursor with
    | .error diagnostic => .error diagnostic
    | .ok none => .ok ([], cursor)
    | .ok (some (item, later, after)) => Prod.map (item :: ·) id <$> reader later after
  shorter : ∀ {memory cursor item later after},
    turn memory cursor = .ok (some (item, later, after)) →
      after.ahead.length < cursor.ahead.length

/-- What holds of the outcome of every last turn, and of that of a turn that goes on if it
holds of what comes next, holds of the outcome of the reader. -/
theorem Drives.induction (drives : turn.Drives reader)
    {motive : Memory → Cursor → Except Diagnostic (List Item × Cursor) → Prop}
    (fails : ∀ memory cursor diagnostic, turn memory cursor = .error diagnostic →
      motive memory cursor (.error diagnostic))
    (ends : ∀ memory cursor, turn memory cursor = .ok none →
      motive memory cursor (.ok ([], cursor)))
    (goesOn : ∀ memory cursor item later after,
      turn memory cursor = .ok (some (item, later, after)) →
        motive later after (reader later after) →
          motive memory cursor (Prod.map (item :: ·) id <$> reader later after))
    (memory : Memory) (cursor : Cursor) : motive memory cursor (reader memory cursor) := by
  -- On what is ahead, since a turn that goes on leaves less of it.
  induction length : cursor.ahead.length using Nat.strongRecOn
    generalizing memory cursor with
  | ind length induction =>
      subst length
      rw [drives.unfold]
      split
      · rename_i diagnostic failed
        exact fails memory cursor diagnostic failed
      · rename_i ended
        exact ends memory cursor ended
      · rename_i item later after next
        exact goesOn memory cursor item later after next
          (induction _ (drives.shorter next) later after rfl)

/-- The loop is over within as many turns as there are lexemes. -/
theorem Drives.run?_eq (drives : turn.Drives reader) {limit : Nat} (memory : Memory)
    {cursor : Cursor} (enough : cursor.ahead.length < limit) :
    turn.run? limit memory cursor = some (reader memory cursor) := by
  revert limit
  refine drives.induction (motive := fun memory cursor outcome =>
    ∀ {limit}, cursor.ahead.length < limit →
      turn.run? limit memory cursor = some outcome) ?_ ?_ ?_ memory cursor
  · intro memory cursor diagnostic failed limit enough
    obtain ⟨spare, rfl⟩ := Nat.exists_eq_add_of_lt enough
    simp [run?, failed]
  · intro memory cursor ended limit enough
    obtain ⟨spare, rfl⟩ := Nat.exists_eq_add_of_lt enough
    simp [run?, ended]
  · intro memory cursor item later after next induction limit enough
    obtain ⟨spare, rfl⟩ := Nat.exists_eq_add_of_lt enough
    have rest := induction (Nat.lt_add_right spare (drives.shorter next))
    simp [run?, next, rest]

end Turn

namespace Cursor

/-- The turn of the loop over segments, each behind a separator. -/
def segmentTurn (separator : Token) (make : String → Problem) : Turn Unit String :=
  fun _ cursor =>
    if cursor.token = separator then
      (fun (text, after) => some (text, (), after)) <$> cursor.advance.segment make
    else
      .ok none

/-- The turn of the loop over arguments, which remembers their names. -/
def argumentTurn (module : String) : Turn (List String) Argument :=
  fun seen cursor =>
    match cursor.token with
    | .flag name => do
        let (argument, after) ← cursor.argument name
        if name ∈ seen then
          .error (cursor.failure (.duplicateArgument module name))
        else
          .ok (some (argument, name :: seen, after))
    | _ => .ok none

/-- The turn of the loop over the modules behind pipes. -/
def moduleTurn : Turn Unit Module :=
  fun _ cursor =>
    if cursor.token = .pipe then
      if cursor.advance.token = .endOfInput ∨ cursor.advance.token = .pipe ∨
          cursor.advance.token = .arrow then
        .error (cursor.failure .danglingPipe)
      else
        (fun (module, after) => some (module, (), after)) <$> cursor.advance.module
    else
      .ok none

theorem segmentTurn_drives (separator : Token) (isSeparator : separator.segment? = none)
    (make : String → Problem) :
    (segmentTurn separator make).Drives
      fun _ cursor => cursor.segments separator isSeparator make where
  unfold _ cursor := by
    unfold segmentTurn
    by_cases here : cursor.token = separator
    · rw [segments, dif_pos here, if_pos here]
      split
      · rename_i diagnostic failed
        simp only [failed, Functor.map, Except.map]
      · rename_i text after read
        simp only [read, Functor.map, Except.map]
        cases after.segments separator isSeparator make <;> rfl
    · rw [segments, dif_neg here, if_neg here]
  shorter next := by
    unfold segmentTurn at next
    split at next
    · rename_i here
      obtain ⟨⟨text, after⟩, read, same⟩ := map_eq_ok.mp next
      cases same
      exact segment_ahead_lt (here ▸ isSeparator) read
    · cases next

theorem argumentTurn_of_flag {module name : String} {seen : List String} {cursor : Cursor}
    (flag : cursor.token = .flag name) :
    argumentTurn module seen cursor = cursor.argument name >>= fun found =>
      if name ∈ seen then .error (cursor.failure (.duplicateArgument module name))
      else .ok (some (found.1, name :: seen, found.2)) := by
  simp only [argumentTurn, flag]

theorem argumentTurn_of_other {module : String} {seen : List String} {cursor : Cursor}
    (noFlag : ∀ name, cursor.token ≠ .flag name) :
    argumentTurn module seen cursor = .ok none := by
  unfold argumentTurn
  split
  · rename_i name flag
    exact (noFlag name flag).elim
  · rfl

theorem argumentTurn_drives {module : String} :
    (argumentTurn module).Drives fun seen cursor => cursor.arguments module seen where
  unfold seen cursor := by
    rw [arguments]
    split
    · rename_i name flag
      rw [argumentTurn_of_flag flag]
      split
      · rename_i diagnostic failed
        simp only [failed, bind, Except.bind]
      · rename_i argument after read
        simp only [read, bind, Except.bind]
        by_cases repeated : name ∈ seen
        · simp only [if_pos repeated]
        · simp only [if_neg repeated]
          cases after.arguments module (name :: seen) <;> rfl
    · rename_i noFlag
      rw [argumentTurn_of_other noFlag]
  shorter := by
    intro seen cursor item later after next
    by_cases found : ∃ name, cursor.token = .flag name
    · obtain ⟨name, flag⟩ := found
      rw [argumentTurn_of_flag flag] at next
      obtain ⟨⟨argument, last⟩, read, goesOn⟩ := bind_eq_ok.mp next
      split at goesOn
      · cases goesOn
      · cases goesOn
        exact argument_ahead_lt flag read
    · rw [argumentTurn_of_other (not_exists.mp found)] at next
      cases next

theorem moduleTurn_drives : moduleTurn.Drives fun _ cursor => cursor.modulesAfterPipe where
  unfold _ cursor := by
    unfold moduleTurn
    by_cases pipe : cursor.token = .pipe
    · rw [modulesAfterPipe, dif_pos pipe, if_pos pipe]
      split
      · rfl
      · split
        · rename_i diagnostic failed
          simp only [failed, Functor.map, Except.map]
        · rename_i module after read
          simp only [read, Functor.map, Except.map]
          cases after.modulesAfterPipe <;> rfl
    · rw [modulesAfterPipe, dif_neg pipe, if_neg pipe]
  shorter next := by
    unfold moduleTurn at next
    split at next
    · rename_i pipe
      split at next
      · cases next
      · rename_i proper
        obtain ⟨⟨module, after⟩, read, same⟩ := map_eq_ok.mp next
        cases same
        have moved := advance_ahead_lt fun same => proper (.inr (.inl (same.trans pipe)))
        exact Nat.lt_of_le_of_lt (module_ahead_le read) moved
    · cases next

end Cursor

end Tapline
