import Tapline.Proofs.Pointing

/-!
# Lexical problems

No phrase is made of a lexeme that stands for a lexical problem, so a text that has one is
rejected.  The diagnostic is about the first of them, or about something else that ends
before it begins.  A text that has none is never said to have one.
-/

namespace Tapline

/-- The first lexeme of the text that stands for a lexical problem. -/
def Lexeme.firstProblem? (text : String) : Option Lexeme :=
  (ofText text).find? (·.token.problem?.isSome)

/-- The diagnostic reports the lexical problem that the lexeme stands for, or a syntactic
problem in front of the lexeme. -/
inductive Diagnostic.ReportsUpTo (lexeme : Lexeme) : Diagnostic → Prop where
  | unexpectedCharacter {character : Char} :
      lexeme.token = .unknown character →
      ReportsUpTo lexeme ⟨.unexpectedCharacter (String.singleton character), lexeme.span⟩
  | unterminatedLiteral {value : String} :
      lexeme.token = .unterminated value →
      ReportsUpTo lexeme ⟨.unterminatedLiteral, lexeme.span⟩
  | before {diagnostic : Diagnostic} :
      diagnostic.problem.kind = .syntactic →
      diagnostic.span.stop ≤ lexeme.span.start →
      ReportsUpTo lexeme diagnostic

theorem Diagnostic.reportsUpTo_of_problem? {lexeme : Lexeme} {problem : Problem}
    (found : lexeme.token.problem? = some problem) :
    ReportsUpTo lexeme ⟨problem, lexeme.span⟩ := by
  cases token : lexeme.token with
  | unknown character =>
      rw [token] at found
      cases found
      exact .unexpectedCharacter token
  | unterminated value =>
      rw [token] at found
      cases found
      exact .unterminatedLiteral token
  | _ =>
      rw [token] at found
      cases found

/-- A run ends before anything begins that comes behind it. -/
theorem Lexeme.Ordered.stop_le_of_run {passed rest run : List Lexeme} {span : Span}
    (ordered : Ordered (passed ++ rest)) (within : run <:+: passed)
    (spanned : Spanned run span) {later : Lexeme} (behind : later ∈ rest) :
    span.stop ≤ later.span.start := by
  have inside := within.sublist.trans (List.sublist_append_left passed rest)
  obtain ⟨-, last, -, atEnd, rfl⟩ := (ordered.sublist inside).ends spanned
  have member : last ∈ passed := within.subset (List.mem_of_getLast? atEnd)
  exact (List.pairwise_append.mp ordered.apart).2.2 last member later behind

theorem Lexeme.firstProblem?_eq_some {text : String} {lexeme : Lexeme} :
    firstProblem? text = some lexeme ↔
      lexeme.token.problem?.isSome ∧ ∃ passed rest,
        ofText text = passed ++ lexeme :: rest ∧
          ∀ earlier ∈ passed, earlier.token.problem? = none := by
  simp [firstProblem?, List.find?_eq_some_iff_append]

namespace Cursor.Reports

variable {text : String} {diagnostic : Diagnostic}

/-- What is reported of a text concerns nothing behind its first lexical problem. -/
theorem upTo (reports : (Cursor.ofLexemes (Lexeme.ofText text)).Reports diagnostic)
    {first : Lexeme} (found : Lexeme.firstProblem? text = some first) :
    diagnostic.ReportsUpTo first := by
  have remaining := Pipeline.remaining_ofText text
  cases reports with
  | @lexical passed rest lexeme problem ahead clear stands =>
      have here : Lexeme.firstProblem? text = some lexeme := by
        rw [Lexeme.firstProblem?_eq_some, stands]
        exact ⟨rfl, passed, rest, remaining.symm.trans ahead, clear⟩
      obtain rfl := Option.some.inj (found.symm.trans here)
      exact Diagnostic.reportsUpTo_of_problem? stands
  | @syntactic passed rest run problem span ahead clear within spanned kind =>
      have whole : Lexeme.ofText text = passed ++ rest := remaining.symm.trans ahead
      obtain ⟨stands, _, _, split, -⟩ := Lexeme.firstProblem?_eq_some.mp found
      -- Nothing that was passed stands for a problem, so the first one is still ahead.
      have behind : first ∈ rest := by
        have member : first ∈ passed ++ rest := by
          rw [← whole, split]
          exact List.mem_append_right _ List.mem_cons_self
        rcases List.mem_append.mp member with seen | later
        · rw [clear first seen] at stands
          cases stands
        · exact later
      have ordered := Lexeme.ordered_ofText text
      rw [whole] at ordered
      exact .before kind (ordered.stop_le_of_run within spanned behind)

theorem exists_problem
    (reports : (Cursor.ofLexemes (Lexeme.ofText text)).Reports diagnostic)
    (lexical : diagnostic.problem.kind = .lexical) :
    ∃ lexeme ∈ Lexeme.ofText text, lexeme.token.problem? = some diagnostic.problem := by
  have remaining := Pipeline.remaining_ofText text
  cases reports with
  | @lexical passed rest lexeme problem ahead clear stands =>
      refine ⟨lexeme, ?_, stands⟩
      rw [← remaining, ahead]
      exact List.mem_append_right _ List.mem_cons_self
  | syntactic _ _ _ _ kind =>
      rw [kind] at lexical
      cases lexical

end Cursor.Reports

namespace Pipeline

private theorem exists_error_of_problem (kind : Kind) {text : String} {lexeme : Lexeme}
    (member : lexeme ∈ Lexeme.ofText text) (stands : lexeme.token.problem? ≠ none) :
    ∃ diagnostic, parse kind text = .error diagnostic := by
  cases outcome : parse kind text with
  | error diagnostic => exact ⟨diagnostic, rfl⟩
  | ok found =>
      obtain ⟨lexemes, whole, -, plain, -⟩ := exists_plain_of_parse outcome
      rw [whole] at member
      rcases List.mem_append.mp member with inside | atEnd
      · exact (stands (Token.problem?_of_isPlain (plain lexeme inside))).elim
      · rw [List.mem_singleton.mp atEnd] at stands
        exact (stands rfl).elim

/-- A text with a lexical problem is rejected.  The first such problem is reported where it
is, or else a syntactic problem that ends before it begins.  A text without lexical
problems is not reported to have one. -/
theorem parse_reports_upTo (kind : Kind) (text : String) :
    ((∃ lexeme ∈ Lexeme.ofText text, lexeme.token.problem? ≠ none) →
      ∃ first diagnostic, Lexeme.firstProblem? text = some first ∧
        parse kind text = .error diagnostic ∧ diagnostic.ReportsUpTo first) ∧
    ((∀ lexeme ∈ Lexeme.ofText text, lexeme.token.problem? = none) →
      ∀ diagnostic, parse kind text = .error diagnostic →
        diagnostic.problem.kind ≠ .lexical) := by
  constructor
  · rintro ⟨lexeme, member, stands⟩
    obtain ⟨diagnostic, failed⟩ := exists_error_of_problem kind member stands
    have present : (Lexeme.firstProblem? text).isSome := by
      rw [Lexeme.firstProblem?, List.find?_isSome]
      exact ⟨lexeme, member, Option.isSome_iff_ne_none.mpr stands⟩
    obtain ⟨first, found⟩ := Option.isSome_iff_exists.mp present
    exact ⟨first, diagnostic, found, failed, (reports_of_parse failed).upTo found⟩
  · intro clear diagnostic failed lexical
    obtain ⟨lexeme, member, stands⟩ := (reports_of_parse failed).exists_problem lexical
    rw [clear lexeme member] at stands
    cases stands

/-- A strange character in front of a quote that is never closed.  The character is
reported if nothing else is wrong in front of it, and otherwise the pipe that has no module
behind it.  A text whose arrow leads nowhere has no lexical problem to report. -/
theorem parse_reports_upTo_strange :
    let strange : Lexeme := ⟨.unknown '\u00e9', ⟨10, 12⟩⟩
    let unknown : Diagnostic := ⟨.unexpectedCharacter "\u00e9", ⟨10, 12⟩⟩
    let pipe : Diagnostic := ⟨.danglingPipe, ⟨2, 3⟩⟩
    let arrow : Diagnostic := ⟨.danglingArrow, ⟨6, 7⟩⟩
    strange.token.problem? ≠ none ∧
      (strange ∈ Lexeme.ofText "h --n='x' \u00e9 | 'y" ∧
        parse .job "h --n='x' \u00e9 | 'y" = .error unknown ∧
          unknown.ReportsUpTo strange) ∧
      (strange ∈ Lexeme.ofText "a | | 'x' \u00e9 | 'y" ∧
        parse .stream "a | | 'x' \u00e9 | 'y" = .error pipe ∧ pipe.ReportsUpTo strange) ∧
      (∀ lexeme ∈ Lexeme.ofText "a | b >", lexeme.token.problem? = none) ∧
        parse .stream "a | b >" = .error arrow ∧ arrow.problem.kind ≠ .lexical := by
  intro strange unknown pipe arrow
  have stands : strange.token.problem? ≠ none := by decide
  have reported {kind : Kind} {text : String} {diagnostic : Diagnostic}
      (found : Lexeme.firstProblem? text = some strange)
      (failed : parse kind text = .error diagnostic) : diagnostic.ReportsUpTo strange := by
    have member : strange ∈ Lexeme.ofText text := List.mem_of_find?_eq_some found
    obtain ⟨first, other, isFirst, fails, upTo⟩ :=
      (parse_reports_upTo kind text).1 ⟨strange, member, stands⟩
    obtain rfl := Option.some.inj (found.symm.trans isFirst)
    obtain rfl := Except.error.inj (failed.symm.trans fails)
    exact upTo
  have failedUnknown : parse .job "h --n='x' \u00e9 | 'y" = .error unknown :=
    eq_error_of_failure? (by decide +kernel)
  have failedPipe : parse .stream "a | | 'x' \u00e9 | 'y" = .error pipe :=
    eq_error_of_failure? (by decide +kernel)
  have failedArrow : parse .stream "a | b >" = .error arrow :=
    eq_error_of_failure? (by decide +kernel)
  have clear : ∀ lexeme ∈ Lexeme.ofText "a | b >", lexeme.token.problem? = none := by
    decide +kernel
  refine ⟨stands, ⟨?_, failedUnknown, ?_⟩, ⟨?_, failedPipe, ?_⟩, clear, failedArrow, ?_⟩
  · decide +kernel
  · exact reported (by decide +kernel) failedUnknown
  · decide +kernel
  · exact reported (by decide +kernel) failedPipe
  · exact (parse_reports_upTo .stream "a | b >").2 clear arrow failedArrow

end Pipeline

end Tapline
