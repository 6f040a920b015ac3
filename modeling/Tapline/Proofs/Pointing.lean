import Tapline.Proofs.Positions
import Tapline.Proofs.Resolution

/-!
# Diagnostics point into their text

A diagnostic of the parser is about lexemes of the text, and one of resolution
about a channel of the tree, so the spans of both lie in the text.  The last line
of a rendered diagnostic then marks exactly the characters that its span covers.
It has a bounded length whatever the span and the text are.
-/

namespace Tapline

private theorem Text.length_le_byteLength (text : List Char) :
    text.length ≤ byteLength text := by
  induction text with
  | nil => exact Nat.le_refl _
  | cons c rest induction =>
      have positive := c.utf8Size_pos
      rw [List.length_cons, byteLength_cons]
      omega

private theorem Text.length_le_of_slice? {text inside : List Char} {start stop : Nat}
    (found : slice? text start stop = some inside) :
    inside.length ≤ byteLength text := by
  obtain ⟨before, after, whole, -, -⟩ := append_of_slice? found
  have bound := length_le_byteLength inside
  rw [whole, byteLength_append, byteLength_append]
  omega

namespace Diagnostic

/-- The span lies in the text, and the rendered diagnostic ends in a line that
marks what the span covers. -/
structure PointsInto (text : String) (diagnostic : Diagnostic) : Prop where
  liesIn : diagnostic.span.LiesIn text
  rendered : ∃ before inside after, text.toList = before ++ (inside ++ after) ∧
    Text.byteLength before = diagnostic.span.start ∧
    Text.byteLength (before ++ inside) = diagnostic.span.stop ∧
    diagnostic.render text =
      diagnostic.message ++ "\n" ++ text ++ "\n" ++
        String.ofList (List.replicate before.length ' ' ++
          List.replicate (max 1 inside.length) '^')

private theorem caretLine_append {diagnostic : Diagnostic} {before inside after : List Char}
    (start : Text.byteLength before = diagnostic.span.start)
    (stop : Text.byteLength (before ++ inside) = diagnostic.span.stop) :
    diagnostic.caretLine (before ++ (inside ++ after)) =
      List.replicate before.length ' ' ++
        List.replicate (max 1 inside.length) '^' := by
  have column : diagnostic.caretColumn (before ++ (inside ++ after)) =
      before.length := by
    have found := Text.slice?_append [] before (inside ++ after)
    rw [List.nil_append, Text.byteLength_nil, Nat.zero_add] at found
    rw [caretColumn, ← start, Nat.min_eq_left (by simp), found]
  have width : diagnostic.caretWidth (before ++ (inside ++ after)) =
      max 1 inside.length := by
    have found := Text.slice?_append before inside after
    rw [← Text.byteLength_append] at found
    rw [caretWidth, ← start, ← stop, Nat.min_eq_left (by simp), found]
  rw [caretLine, column, width]

theorem pointsInto {text : String} {diagnostic : Diagnostic}
    (liesIn : diagnostic.span.LiesIn text) : diagnostic.PointsInto text := by
  obtain ⟨before, inside, after, whole, start, stop⟩ :=
    liesIn.start_isBoundary.exists_parts liesIn.stop_isBoundary liesIn.start_le_stop
  refine ⟨liesIn, before, inside, after, whole, start, stop, ?_⟩
  rw [render, whole, caretLine_append start stop]

/-- A column inside a character is that of a byte of the text, and one behind the
text is that of its end. -/
theorem caretColumn_le (diagnostic : Diagnostic) (source : List Char) :
    diagnostic.caretColumn source ≤ Text.byteLength source := by
  unfold caretColumn
  dsimp only
  split
  · rename_i before found
    exact Text.length_le_of_slice? found
  · rename_i missing
    by_cases outside : diagnostic.span.start ≤ Text.byteLength source
    · exact outside
    · have whole := Text.slice?_append [] source []
      rw [List.nil_append, List.append_nil, Text.byteLength_nil, Nat.zero_add] at whole
      rw [Nat.min_eq_right (Nat.le_of_not_le outside), whole] at missing
      cases missing

private theorem caretWidth_bounds (diagnostic : Diagnostic) (source : List Char) :
    1 ≤ diagnostic.caretWidth source ∧
      diagnostic.caretWidth source ≤ max 1 (Text.byteLength source) := by
  unfold caretWidth
  dsimp only
  split
  · rename_i inside found
    have bound := Text.length_le_of_slice? found
    omega
  · omega

end Diagnostic

namespace Cursor.Reports

variable {cursor : Cursor} {diagnostic : Diagnostic}

theorem kind (reports : cursor.Reports diagnostic) :
    diagnostic.problem.kind = .lexical ∨ diagnostic.problem.kind = .syntactic := by
  cases reports with
  | lexical _ _ found => exact .inl (Token.kind_of_problem? found)
  | syntactic _ _ _ _ kind => exact .inr kind

theorem liesIn {text : String} (remaining : cursor.remaining = Lexeme.ofText text)
    (reports : cursor.Reports diagnostic) : diagnostic.span.LiesIn text := by
  cases reports with
  | @lexical passed rest lexeme problem ahead _ _ =>
      rw [remaining] at ahead
      apply Lexeme.liesIn_of_mem_ofText
      rw [ahead]
      exact List.mem_append_right _ List.mem_cons_self
  | @syntactic passed rest run problem span ahead _ within spanned _ =>
      rw [remaining] at ahead
      have inside : run.Sublist (Lexeme.ofText text) := by
        rw [ahead]
        exact within.sublist.trans (List.sublist_append_left _ _)
      exact ((Lexeme.ordered_ofText text).sublist inside).liesIn
        (fun lexeme member => Lexeme.liesIn_of_mem_ofText (inside.subset member)) spanned

end Cursor.Reports

theorem Pipeline.reports_of_parse {kind : Kind} {text : String}
    {diagnostic : Diagnostic} (failed : parse kind text = .error diagnostic) :
    (Cursor.ofLexemes (Lexeme.ofText text)).Reports diagnostic := by
  have reads := ofLexemes_reads kind (closed_ofText text)
  rwa [show ofLexemes kind (Lexeme.ofText text) = .error diagnostic from failed]
    at reads

/-- The target of a channel is missing, or too short. -/
def Channel.Misses (channel : Channel) (diagnostic : Diagnostic) : Prop :=
  diagnostic.problem.kind = .resolution ∧ diagnostic.span = channel.span

theorem Channel.misses_of_resolve {environment : Environment} {channel : Channel}
    {diagnostic : Diagnostic}
    (failed : channel.resolve environment = .error diagnostic) :
    channel.Misses diagnostic := by
  unfold resolve at failed
  split at failed
  · rename_i kind position _ _
    dsimp only at failed
    split at failed
    · cases failed
      cases kind <;> exact ⟨rfl, rfl⟩
    · split at failed
      · cases failed
      · cases failed
        exact ⟨rfl, rfl⟩
  · cases failed

theorem Pipeline.exists_misses_of_resolve {environment : Environment}
    {pipeline : Pipeline} {diagnostic : Diagnostic}
    (failed : pipeline.resolve environment = .error diagnostic) :
    ∃ channel ∈ pipeline.channels, channel.Misses diagnostic := by
  have missed {written : Option Channel}
      (unresolved : resolveChannel? environment written = .error diagnostic) :
      ∃ channel ∈ written.toList, channel.Misses diagnostic := by
    cases written with
    | none => cases unresolved
    | some channel =>
        have misses := Channel.misses_of_resolve (map_eq_error.mp unresolved)
        exact ⟨channel, List.mem_cons_self, misses⟩
  rcases bind_eq_error.mp failed with atSource | ⟨source, -, later⟩
  · obtain ⟨channel, member, misses⟩ := missed atSource
    exact ⟨channel, List.mem_append_left _ member, misses⟩
  · rcases bind_eq_error.mp later with atSink | ⟨sink, -, done⟩
    · obtain ⟨channel, member, misses⟩ := missed atSink
      exact ⟨channel, List.mem_append_right _ member, misses⟩
    · cases done

namespace Diagnostic

/-- A text that is rejected gets a lexical or syntactic diagnostic, and a tree
whose taps cannot be resolved one of resolution.  Both point into the text.  The
line that points is bounded by the text even if a span has nothing to do with
it. -/
theorem points_into_text :
    (∀ kind text diagnostic, Pipeline.parse kind text = .error diagnostic →
      (diagnostic.problem.kind = .lexical ∨ diagnostic.problem.kind = .syntactic) ∧
        diagnostic.PointsInto text) ∧
    (∀ kind text found environment diagnostic,
      Pipeline.parse kind text = .ok found →
      found.resolve environment = .error diagnostic →
        diagnostic.problem.kind = .resolution ∧ diagnostic.PointsInto text) ∧
    ∀ (diagnostic : Diagnostic) (source : String), ∃ column width,
      diagnostic.render source =
        diagnostic.message ++ "\n" ++ source ++ "\n" ++
          String.ofList (List.replicate column ' ' ++ List.replicate width '^') ∧
      column ≤ source.utf8ByteSize ∧ 1 ≤ width ∧
        width ≤ max 1 source.utf8ByteSize := by
  refine ⟨?_, ?_, ?_⟩
  · intro kind text diagnostic failed
    have reports := Pipeline.reports_of_parse failed
    exact ⟨reports.kind, pointsInto (reports.liesIn (Pipeline.remaining_ofText text))⟩
  · intro kind text found environment diagnostic read failed
    obtain ⟨channel, member, isResolution, span⟩ :=
      Pipeline.exists_misses_of_resolve failed
    refine ⟨isResolution, pointsInto ?_⟩
    rw [span]
    exact Pipeline.liesIn_of_mem_channels read member
  · intro diagnostic source
    have width := diagnostic.caretWidth_bounds source.toList
    have column := diagnostic.caretColumn_le source.toList
    rw [Text.byteLength_toList] at width column
    exact ⟨_, _, rfl, column, width⟩

/-- Pointing behind a character of two bytes, at a tap whose target is missing,
and with a span that starts inside a character and stops behind the text. -/
theorem points_into_text_audit :
    let rejected := "h --n='\u00e9' \u00e9"
    let accepted := "x = tap:main.7 > log --n='\u00e9'"
    let found : Pipeline :=
      ⟨some "x", some ⟨.tap .stream, ["main"], ["7"], ⟨4, 14⟩⟩,
        [⟨"log", none, [⟨"n", "\u00e9", ⟨21, 29⟩⟩], ⟨17, 29⟩⟩], none, ⟨0, 29⟩⟩
    let unknown : Diagnostic := ⟨.unexpectedCharacter "\u00e9", ⟨11, 13⟩⟩
    let missing : Diagnostic := ⟨.unknownStream "main", ⟨4, 14⟩⟩
    let astray : Diagnostic := ⟨.danglingPipe, ⟨12, 18446744073709551615⟩⟩
    Pipeline.parse .job rejected = .error unknown ∧ unknown.PointsInto rejected ∧
      Pipeline.parse .stream accepted = .ok found ∧
      found.resolve .empty = .error missing ∧ missing.PointsInto accepted ∧
      ∃ column width,
        astray.render rejected =
          astray.message ++ "\n" ++ rejected ++ "\n" ++
            String.ofList (List.replicate column ' ' ++ List.replicate width '^') ∧
        column ≤ rejected.utf8ByteSize ∧ 1 ≤ width ∧
          width ≤ max 1 rejected.utf8ByteSize := by
  intro rejected accepted found unknown missing astray
  have failed : Pipeline.parse .job rejected = .error unknown :=
    eq_error_of_failure? (by decide +kernel)
  have read : Pipeline.parse .stream accepted = .ok found :=
    eq_ok_of_toOption (by decide +kernel)
  have unresolved : found.resolve .empty = .error missing :=
    eq_error_of_failure? (by decide +kernel)
  obtain ⟨rejects, resolves, bounded⟩ := points_into_text
  have pointed := (rejects .job rejected unknown failed).2
  have pointedTap := (resolves .stream accepted found .empty missing read unresolved).2
  exact ⟨failed, pointed, read, unresolved, pointedTap, bounded astray rejected⟩

end Diagnostic

end Tapline
