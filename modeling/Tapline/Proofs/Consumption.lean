import Tapline.Proofs.Recognition.Channel
import Tapline.Proofs.Runs

/-!
# Consumption of lexemes

A reader brings its cursor forward over plain lexemes, which are neither the end
of the input nor a lexical problem.  Where it fails, it reports the first
lexical problem that it meets, or a problem of its own at a run of lexemes that
it has seen, with no lexical problem in front of them.
-/

namespace Tapline

open Lexeme (Spanned hull)

namespace Token

/-- The lexical problem that the token stands for. -/
def problem? : Token → Option Problem
  | .unknown character => some (.unexpectedCharacter (String.singleton character))
  | .unterminated _ => some .unterminatedLiteral
  | _ => none

/-- Whether a phrase can be made of the token. -/
def isPlain : Token → Bool
  | .unknown _ | .unterminated _ | .endOfInput => false
  | _ => true

theorem problem?_of_isPlain {token : Token} (plain : token.isPlain = true) :
    token.problem? = none := by
  cases token with
  | unknown | unterminated => cases plain
  | _ => rfl

theorem kind_of_problem? {token : Token} {problem : Problem}
    (found : token.problem? = some problem) : problem.kind = .lexical := by
  cases token with
  | unknown | unterminated =>
      cases found
      rfl
  | _ => cases found

theorem ne_endOfInput_of_isPlain {token : Token} (plain : token.isPlain = true) :
    token ≠ .endOfInput := by
  rintro rfl
  cases plain

theorem isPlain_of_segment? {token : Token} {text : String}
    (found : token.segment? = some text) : token.isPlain = true := by
  cases token with
  | word | number => rfl
  | _ => cases found

end Token

namespace Cursor

/-- The lexeme under the cursor and those ahead. -/
def remaining (cursor : Cursor) : List Lexeme :=
  cursor.current :: cursor.ahead

/-- The cursor is brought forward over the lexemes, all of them plain. -/
inductive Consumes : Cursor → List Lexeme → Cursor → Prop where
  | stay (cursor : Cursor) : Consumes cursor [] cursor
  | step {before : Span} {current next : Lexeme} {ahead used : List Lexeme}
      {after : Cursor} :
      current.token.isPlain = true →
      Consumes ⟨current.span, next, ahead⟩ used after →
      Consumes ⟨before, current, next :: ahead⟩ (current :: used) after

/-- The end of the input comes last, and only there. -/
def Closed (cursor : Cursor) : Prop :=
  ∃ tokens, cursor.Faces tokens

namespace Consumes

variable {cursor after last : Cursor} {used more : List Lexeme}

theorem trans (consumed : cursor.Consumes used after)
    (later : after.Consumes more last) : cursor.Consumes (used ++ more) last := by
  induction consumed with
  | stay => exact later
  | step plain _ induction => exact .step plain (induction later)

theorem remaining (consumed : cursor.Consumes used after) :
    cursor.remaining = used ++ after.remaining := by
  induction consumed with
  | stay => rfl
  | step _ _ induction =>
      rw [List.cons_append, ← induction]
      rfl

theorem isPlain (consumed : cursor.Consumes used after) :
    ∀ lexeme ∈ used, lexeme.token.isPlain = true := by
  induction consumed with
  | stay => simp
  | step plain _ induction => exact List.forall_mem_cons.mpr ⟨plain, induction⟩

theorem closed (consumed : cursor.Consumes used after) (closed : cursor.Closed) :
    after.Closed := by
  induction consumed with
  | stay => exact closed
  | step plain _ induction =>
      obtain ⟨tokens, faces⟩ := closed
      obtain ⟨rest, -, facesRest⟩ :=
        faces.eq_cons rfl (Token.ne_endOfInput_of_isPlain plain)
      exact induction ⟨rest, facesRest⟩

theorem before_cons {first : Lexeme} (consumed : cursor.Consumes (first :: more) after) :
    cursor.current = first ∧ after.before = (more.getLastD first).span := by
  induction more generalizing cursor first with
  | nil =>
      cases consumed with
      | step _ later =>
          cases later
          exact ⟨rfl, rfl⟩
  | cons second rest induction =>
      cases consumed with
      | step _ later =>
          obtain ⟨-, last⟩ := induction later
          rw [List.getLastD_cons]
          exact ⟨rfl, last⟩

theorem current_eq {lexeme : Lexeme} (consumed : cursor.Consumes used after)
    (further : cursor.Consumes (used ++ lexeme :: more) last) :
    after.current = lexeme := by
  have same := consumed.remaining.symm.trans further.remaining
  rw [List.append_assoc] at same
  exact (List.cons.inj (List.append_cancel_left same)).1

/-- A span from the cursor to where it has been brought is that of what was
consumed. -/
theorem spanned (consumed : cursor.Consumes used after) (nonempty : used ≠ []) :
    Spanned used (cursor.span.merge after.before) := by
  cases used with
  | nil => exact (nonempty rfl).elim
  | cons first rest =>
      obtain ⟨here, last⟩ := consumed.before_cons
      refine ⟨nonempty, ?_⟩
      rw [last, span, here, hull]

end Consumes

namespace Closed

variable {cursor : Cursor}

theorem consumes (closed : cursor.Closed) (plain : cursor.token.isPlain = true) :
    cursor.Consumes [cursor.current] cursor.advance := by
  obtain ⟨tokens, faces⟩ := closed
  obtain ⟨before, current, ahead⟩ := cursor
  cases ahead with
  | cons next ahead => exact .step plain (.stay _)
  | nil =>
      obtain ⟨rest, rfl, -⟩ :=
        faces.eq_cons rfl (Token.ne_endOfInput_of_isPlain plain)
      simpa using faces.1

theorem nextToken (closed : cursor.Closed) (plain : cursor.token.isPlain = true) :
    cursor.nextToken = cursor.advance.token := by
  obtain ⟨tokens, faces⟩ := closed
  obtain ⟨rest, rfl, facesRest⟩ :=
    faces.eq_cons rfl (Token.ne_endOfInput_of_isPlain plain)
  rw [faces.nextToken, facesRest.token]

theorem consumes_opens (closed : cursor.Closed) {text : String} {sign : Token}
    (opens : cursor.Opens text sign) (plain : sign.isPlain = true) :
    cursor.Consumes [cursor.current, cursor.advance.current] cursor.advance.advance := by
  obtain ⟨word, next⟩ := opens
  have onWord : cursor.token.isPlain = true := by
    rw [word]
    rfl
  rw [closed.nextToken onWord] at next
  have first := closed.consumes onWord
  exact first.trans ((first.closed closed).consumes (next ▸ plain))

end Closed

/-- The diagnostic is about what the cursor has ahead. -/
inductive Reports (cursor : Cursor) : Diagnostic → Prop where
  /-- The first lexical problem is reported where it is. -/
  | lexical {passed rest : List Lexeme} {lexeme : Lexeme} {problem : Problem} :
      cursor.remaining = passed ++ lexeme :: rest →
      (∀ lexeme ∈ passed, lexeme.token.problem? = none) →
      lexeme.token.problem? = some problem →
      Reports cursor ⟨problem, lexeme.span⟩
  /-- Any other problem concerns a run of lexemes with no lexical problem among
  them or in front of them. -/
  | syntactic {passed rest run : List Lexeme} {problem : Problem} {span : Span} :
      cursor.remaining = passed ++ rest →
      (∀ lexeme ∈ passed, lexeme.token.problem? = none) →
      run <:+: passed → Spanned run span → problem.kind = .syntactic →
      Reports cursor ⟨problem, span⟩

theorem Consumes.problem? {cursor after : Cursor} {used : List Lexeme}
    (consumed : cursor.Consumes used after) :
    ∀ lexeme ∈ used, lexeme.token.problem? = none :=
  fun lexeme member => Token.problem?_of_isPlain (consumed.isPlain lexeme member)

theorem Reports.behind {cursor after : Cursor} {used : List Lexeme}
    {diagnostic : Diagnostic} (consumed : cursor.Consumes used after)
    (reports : after.Reports diagnostic) : cursor.Reports diagnostic := by
  have remaining := consumed.remaining
  cases reports with
  | @lexical passed rest lexeme problem ahead clear found =>
      rw [ahead, ← List.append_assoc] at remaining
      exact .lexical remaining (List.forall_mem_append.mpr ⟨consumed.problem?, clear⟩)
        found
  | @syntactic passed rest run problem span ahead clear within spanned kind =>
      rw [ahead, ← List.append_assoc] at remaining
      exact .syntactic remaining
        (List.forall_mem_append.mpr ⟨consumed.problem?, clear⟩)
        (within.trans (List.suffix_append used passed).isInfix) spanned kind

theorem Consumes.reports {cursor after : Cursor} {used run : List Lexeme}
    {problem : Problem} {span : Span} (consumed : cursor.Consumes used after)
    (within : run <:+: used) (spanned : Spanned run span)
    (kind : problem.kind = .syntactic) : cursor.Reports ⟨problem, span⟩ :=
  .syntactic consumed.remaining consumed.problem? within spanned kind

/-- A problem at the lexeme under the cursor, which is no lexical problem. -/
theorem reports_failure {cursor : Cursor} {problem : Problem}
    (clear : cursor.token.problem? = none) (kind : problem.kind = .syntactic) :
    cursor.Reports (cursor.failure problem) := by
  have ahead : cursor.remaining = [cursor.current] ++ cursor.ahead := rfl
  exact .syntactic ahead (List.forall_mem_singleton.mpr clear) (List.infix_refl _)
    (Lexeme.spanned_singleton _) kind

private theorem unexpected_eq (cursor : Cursor) (make : String → Problem) :
    cursor.unexpected make =
      cursor.failure (cursor.token.problem?.getD (make cursor.token.describe)) := by
  unfold unexpected
  cases cursor.token <;> rfl

theorem reports_unexpected (cursor : Cursor) {make : String → Problem}
    (kind : ∀ found, (make found).kind = .syntactic) :
    cursor.Reports (cursor.unexpected make) := by
  rw [unexpected_eq]
  cases found : cursor.token.problem? with
  | none => exact reports_failure found (kind _)
  | some problem =>
      have ahead : cursor.remaining = [] ++ cursor.current :: cursor.ahead := rfl
      exact .lexical ahead (by simp) found

/-- A reader that succeeds has consumed lexemes that belong to what it returns,
and one that fails reports a problem. -/
def Reads (part : List Lexeme → α → Prop) (cursor : Cursor) :
    Except Diagnostic (α × Cursor) → Prop :=
  Meets cursor.Reports fun found =>
    ∃ used, cursor.Consumes used found.2 ∧ part used found.1

namespace Reads

variable {cursor after : Cursor} {part : List Lexeme → α → Prop}
  {outcome : Except Diagnostic (α × Cursor)}

theorem of_eq_ok {value : α} (reads : cursor.Reads part outcome)
    (read : outcome = .ok (value, after)) :
    ∃ used, cursor.Consumes used after ∧ part used value := by
  rw [read] at reads
  exact reads

theorem of_eq_error {diagnostic : Diagnostic} (reads : cursor.Reads part outcome)
    (failed : outcome = .error diagnostic) : cursor.Reports diagnostic := by
  rw [failed] at reads
  exact reads

end Reads

/-- What is read further on is read behind what was consumed before. -/
theorem Consumes.bind {cursor after : Cursor} {used : List Lexeme}
    {part : List Lexeme → α → Prop} {outcome : Except Diagnostic (α × Cursor)}
    {final : β → Prop} {next : α × Cursor → Except Diagnostic β}
    (consumed : cursor.Consumes used after) (closed : cursor.Closed)
    (reads : after.Closed → after.Reads part outcome)
    (later : ∀ value last more, cursor.Consumes (used ++ more) last → last.Closed →
      part more value → Meets cursor.Reports final (next (value, last))) :
    Meets cursor.Reports final (outcome >>= next) := by
  have here := reads (consumed.closed closed)
  cases outcome with
  | error diagnostic => exact Reports.behind consumed here
  | ok found =>
      obtain ⟨value, last⟩ := found
      obtain ⟨more, consumedMore, belongs⟩ := here
      have whole := consumed.trans consumedMore
      exact later value last more whole (whole.closed closed) belongs

/-- What is read first is read where nothing has been consumed. -/
theorem Closed.bind {cursor : Cursor} {part : List Lexeme → α → Prop}
    {outcome : Except Diagnostic (α × Cursor)} {final : β → Prop}
    {next : α × Cursor → Except Diagnostic β} (closed : cursor.Closed)
    (reads : cursor.Closed → cursor.Reads part outcome)
    (later : ∀ value last used, cursor.Consumes used last → last.Closed →
      part used value → Meets cursor.Reports final (next (value, last))) :
    Meets cursor.Reports final (outcome >>= next) :=
  (Consumes.stay cursor).bind closed reads later

end Cursor

end Tapline
