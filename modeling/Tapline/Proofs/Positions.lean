import Tapline.Proofs.Reading
import Tapline.Proofs.RoundTrip

/-!
# Positions in the text

The spans of the lexemes lie in their text, between its characters, and follow
one another.  The spans of a tree are those of runs of lexemes, so they lie in
the text as well, are nested like the parts of the tree, and have the order in
which these were written.
-/

namespace Tapline

namespace Text

/-- A character begins at the offset, or the text ends there. -/
def IsBoundary (text : List Char) (offset : Nat) : Prop :=
  ∃ before after, text = before ++ after ∧ byteLength before = offset

private theorem isBoundary_of_slice? {text inside : List Char} {start stop : Nat}
    (found : slice? text start stop = some inside) :
    IsBoundary text start ∧ IsBoundary text stop := by
  obtain ⟨before, after, whole, start, width⟩ := append_of_slice? found
  constructor
  · exact ⟨before, inside ++ after, whole, start⟩
  · refine ⟨before ++ inside, after, by rw [whole, List.append_assoc], ?_⟩
    rw [byteLength_append, start, width]

theorem IsBoundary.exists_parts {text : List Char} {start stop : Nat}
    (first : IsBoundary text start) (second : IsBoundary text stop)
    (forwards : start ≤ stop) :
    ∃ before inside after, text = before ++ (inside ++ after) ∧
      byteLength before = start ∧ byteLength (before ++ inside) = stop := by
  obtain ⟨before, rest, whole, rfl⟩ := first
  obtain ⟨longer, after, same, rfl⟩ := second
  rcases List.append_eq_append_iff.mp (whole.symm.trans same) with
    ⟨inside, rfl, rfl⟩ | ⟨inside, rfl, rfl⟩
  · exact ⟨before, inside, after, whole, rfl, rfl⟩
  · -- The first boundary is not behind the second one, so nothing is between.
    have empty : inside = [] := by
      cases inside with
      | nil => rfl
      | cons c more =>
          have positive := c.utf8Size_pos
          rw [byteLength_append, byteLength_cons] at forwards
          omega
    subst empty
    exact ⟨longer ++ [], [], rest, whole, rfl, by simp⟩

end Text

/-- The span goes forwards, from one boundary of the text to another. -/
structure Span.LiesIn (text : String) (span : Span) : Prop where
  start_le_stop : span.start ≤ span.stop
  stop_le : span.stop ≤ text.utf8ByteSize
  start_isBoundary : Text.IsBoundary text.toList span.start
  stop_isBoundary : Text.IsBoundary text.toList span.stop

namespace Lexeme

theorem exists_tiling (text : String) :
    ∃ lexemes,
      ofText text =
        lexemes ++ [⟨.endOfInput, ⟨text.utf8ByteSize, text.utf8ByteSize⟩⟩] ∧
      Tiling 0 text.toList lexemes := by
  obtain ⟨lexemes, placed, tiling⟩ := tiling_place .ordinary text.toList 0
  rw [Nat.zero_add, Text.byteLength_toList] at placed
  exact ⟨lexemes, placed, tiling⟩

theorem liesIn_of_mem_ofText {text : String} {lexeme : Lexeme}
    (member : lexeme ∈ ofText text) : lexeme.span.LiesIn text := by
  obtain ⟨lexemes, whole, tiling⟩ := exists_tiling text
  rw [whole] at member
  rcases List.mem_append.mp member with inside | atEnd
  · have bounds := tiling.bounds lexeme inside
    rw [Nat.zero_add, Text.byteLength_toList] at bounds
    obtain ⟨raw, rest, found, -, -⟩ := tiling.slices Text.byteLength_nil lexeme inside
    obtain ⟨start, stop⟩ := Text.isBoundary_of_slice? found
    exact ⟨Nat.le_of_lt bounds.2.1, bounds.2.2, start, stop⟩
  · rw [List.mem_singleton.mp atEnd]
    have boundary : Text.IsBoundary text.toList text.utf8ByteSize :=
      ⟨text.toList, [], (List.append_nil _).symm, Text.byteLength_toList text⟩
    exact ⟨Nat.le_refl _, Nat.le_refl _, boundary, boundary⟩

theorem ordered_ofText (text : String) : Ordered (ofText text) := by
  constructor
  · intro lexeme member
    exact (liesIn_of_mem_ofText member).start_le_stop
  · obtain ⟨lexemes, whole, tiling⟩ := exists_tiling text
    rw [whole]
    refine List.pairwise_append.mpr ⟨tiling.ordered, List.pairwise_singleton _ _, ?_⟩
    intro earlier member later atEnd
    have bounds := tiling.bounds earlier member
    rw [Nat.zero_add, Text.byteLength_toList] at bounds
    rw [List.mem_singleton.mp atEnd]
    exact bounds.2.2

namespace Ordered

variable {used : List Lexeme} {span : Span}

theorem liesIn {text : String} (ordered : Ordered used)
    (placed : ∀ lexeme ∈ used, lexeme.span.LiesIn text) (spanned : Spanned used span) :
    span.LiesIn text := by
  have encloses := ordered.encloses spanned
  obtain ⟨first, last, atHead, atEnd, rfl⟩ := ordered.ends spanned
  have firstPlaced := placed first (List.mem_of_head? atHead)
  have lastPlaced := placed last (List.mem_of_getLast? atEnd)
  refine ⟨?_, lastPlaced.stop_le, firstPlaced.start_isBoundary,
    lastPlaced.stop_isBoundary⟩
  exact Nat.le_trans firstPlaced.start_le_stop
    (encloses first (List.mem_of_head? atHead)).2

theorem start_lt_stop (ordered : Ordered used)
    (nonempty : ∀ lexeme ∈ used, lexeme.span.start < lexeme.span.stop)
    (spanned : Spanned used span) : span.start < span.stop := by
  have encloses := ordered.encloses spanned
  obtain ⟨first, last, atHead, -, rfl⟩ := ordered.ends spanned
  have member := List.mem_of_head? atHead
  exact Nat.lt_of_lt_of_le (nonempty first member) (encloses first member).2

end Ordered

end Lexeme

namespace Pipeline

/-- The spans of the whole, of its parts, and of all arguments. -/
def spans (pipeline : Pipeline) : List Span :=
  pipeline.span :: pipeline.partSpans ++
    pipeline.modules.flatMap fun module => module.arguments.map Argument.span

/-- The tree and its parts are where the text has them. -/
structure Placed (text : String) (pipeline : Pipeline) : Prop where
  liesIn : ∀ span ∈ pipeline.spans, span.start < span.stop ∧ span.LiesIn text
  /-- The whole reaches from the first lexeme to the last one in front of the end
  of the input. -/
  whole : ∃ lexemes first last,
    Lexeme.ofText text =
      lexemes ++ [⟨.endOfInput, ⟨text.utf8ByteSize, text.utf8ByteSize⟩⟩] ∧
    lexemes.head? = some first ∧ lexemes.getLast? = some last ∧
    pipeline.span = ⟨first.span.start, last.span.stop⟩
  parts_inside : ∀ span ∈ pipeline.partSpans, pipeline.span.Encloses span
  arguments_inside : ∀ module ∈ pipeline.modules, ∀ argument ∈ module.arguments,
    module.span.Encloses argument.span
  parts_apart : pipeline.partSpans.Pairwise fun earlier later =>
    earlier.stop ≤ later.start
  arguments_apart : ∀ module ∈ pipeline.modules,
    (module.arguments.map Argument.span).Pairwise fun earlier later =>
      earlier.stop ≤ later.start

/-- The cursor has been brought over all lexemes but the last. -/
theorem ReadFrom.exists_laid {start : Cursor} {pipeline : Pipeline}
    (read : ReadFrom start pipeline) (closed : start.Closed) :
    ∃ used finish, start.remaining = used ++ [finish] ∧
      (∀ lexeme ∈ used, lexeme.token.isPlain = true) ∧ pipeline.Laid used := by
  obtain ⟨used, after, consumed, atEnd, laid⟩ := read
  obtain ⟨tokens, faces⟩ := consumed.closed closed
  obtain rfl := faces.eq_nil atEnd
  obtain ⟨-, alone⟩ : after.current.token = .endOfInput ∧ after.ahead = [] := by
    simpa using faces.1
  refine ⟨used, after.current, ?_, consumed.isPlain, laid⟩
  rw [consumed.remaining, Cursor.remaining, alone]

theorem closed_ofText (text : String) :
    (Cursor.ofLexemes (Lexeme.ofText text)).Closed :=
  ⟨_, faces_ofText text⟩

theorem remaining_ofText (text : String) :
    (Cursor.ofLexemes (Lexeme.ofText text)).remaining = Lexeme.ofText text := by
  obtain ⟨lexemes, whole, -⟩ := Lexeme.exists_tiling text
  rw [whole]
  cases lexemes with
  | nil => rfl
  | cons first rest => rfl

theorem Laid.placed {text : String} {pipeline : Pipeline} {lexemes : List Lexeme}
    (laid : pipeline.Laid lexemes)
    (whole : Lexeme.ofText text =
      lexemes ++ [⟨.endOfInput, ⟨text.utf8ByteSize, text.utf8ByteSize⟩⟩])
    (tiling : Lexeme.Tiling 0 text.toList lexemes) : pipeline.Placed text := by
  have inText : ∀ lexeme ∈ lexemes, lexeme.span.LiesIn text := by
    intro lexeme member
    apply Lexeme.liesIn_of_mem_ofText
    rw [whole]
    exact List.mem_append_left _ member
  have nonempty : ∀ lexeme ∈ lexemes, lexeme.span.start < lexeme.span.stop :=
    fun lexeme member => (tiling.bounds lexeme member).2.1
  have ordered : Lexeme.Ordered lexemes := by
    refine (Lexeme.ordered_ofText text).sublist ?_
    rw [whole]
    exact List.sublist_append_left _ _
  -- Every span of the tree is that of a run, and what holds of runs is known.
  have placed {used : List Lexeme} {span : Span} (within : used <:+: lexemes)
      (spanned : Lexeme.Spanned used span) :
      span.start < span.stop ∧ span.LiesIn text := by
    have orderedRun := ordered.sublist within.sublist
    exact ⟨orderedRun.start_lt_stop (fun lexeme member =>
        nonempty lexeme (within.subset member)) spanned,
      orderedRun.liesIn (fun lexeme member => inText lexeme (within.subset member))
        spanned⟩
  constructor
  · intro span member
    simp only [spans, List.mem_append, List.mem_cons, List.mem_flatMap] at member
    rcases member with (rfl | part) | ⟨module, inside, argument⟩
    · exact placed (List.infix_refl _) laid.spanned
    · obtain ⟨used, within, spanned⟩ := laid.parts.exists_of_mem part
      exact placed within spanned
    · obtain ⟨used, within, -, runs⟩ := laid.modules module inside
      obtain ⟨run, withinRun, spanned⟩ := runs.exists_of_mem argument
      exact placed (withinRun.trans within) spanned
  · obtain ⟨first, last, atHead, atEnd, span⟩ := ordered.ends laid.spanned
    exact ⟨lexemes, first, last, whole, atHead, atEnd, span⟩
  · intro span part
    obtain ⟨used, within, spanned⟩ := laid.parts.exists_of_mem part
    exact ordered.encloses_run laid.spanned within spanned
  · intro module inside argument member
    obtain ⟨used, within, spanned, runs⟩ := laid.modules module inside
    obtain ⟨run, withinRun, spannedRun⟩ :=
      runs.exists_of_mem (List.mem_map_of_mem member)
    exact (ordered.sublist within.sublist).encloses_run spanned withinRun spannedRun
  · exact ordered.pairwise laid.parts
  · intro module inside
    obtain ⟨used, within, -, runs⟩ := laid.modules module inside
    exact (ordered.sublist within.sublist).pairwise runs

theorem exists_plain_of_parse {kind : Kind} {text : String} {found : Pipeline}
    (read : parse kind text = .ok found) :
    ∃ lexemes,
      Lexeme.ofText text =
        lexemes ++ [⟨.endOfInput, ⟨text.utf8ByteSize, text.utf8ByteSize⟩⟩] ∧
      Lexeme.Tiling 0 text.toList lexemes ∧
      (∀ lexeme ∈ lexemes, lexeme.token.isPlain = true) ∧ found.Laid lexemes := by
  have closed := closed_ofText text
  have reads := ofLexemes_reads kind closed
  rw [show ofLexemes kind (Lexeme.ofText text) = .ok found from read] at reads
  obtain ⟨used, finish, split, plain, laid⟩ := ReadFrom.exists_laid reads closed
  obtain ⟨lexemes, whole, tiling⟩ := Lexeme.exists_tiling text
  rw [remaining_ofText, whole] at split
  obtain ⟨rfl, -⟩ := List.append_inj' split rfl
  exact ⟨lexemes, whole, tiling, plain, laid⟩

theorem exists_laid_of_parse {kind : Kind} {text : String} {found : Pipeline}
    (read : parse kind text = .ok found) :
    ∃ lexemes,
      Lexeme.ofText text =
        lexemes ++ [⟨.endOfInput, ⟨text.utf8ByteSize, text.utf8ByteSize⟩⟩] ∧
      Lexeme.Tiling 0 text.toList lexemes ∧ found.Laid lexemes := by
  obtain ⟨lexemes, whole, tiling, -, laid⟩ := exists_plain_of_parse read
  exact ⟨lexemes, whole, tiling, laid⟩

theorem liesIn_of_mem_channels {kind : Kind} {text : String} {found : Pipeline}
    (read : parse kind text = .ok found) {channel : Channel}
    (member : channel ∈ found.channels) : channel.span.LiesIn text := by
  obtain ⟨lexemes, whole, tiling, laid⟩ := exists_laid_of_parse read
  refine ((laid.placed whole tiling).liesIn channel.span ?_).2
  exact List.mem_append_left _ (List.mem_cons_of_mem _ (span_mem_partSpans member))

/-- Whatever is read from a text is placed in it. -/
theorem placed_of_parse (kind : Kind) (text : String) (found : Pipeline)
    (read : parse kind text = .ok found) : found.Placed text := by
  obtain ⟨lexemes, whole, tiling, laid⟩ := exists_laid_of_parse read
  exact laid.placed whole tiling

/-- A definition with every part of the grammar, and with a character of two
bytes in front of the later parts. -/
theorem placed_of_parse_audit :
    let text := "audit = tap:main.2 > t: filter --e='a \u00e9' --n=1 | log > queue:out"
    let found : Pipeline :=
      ⟨some "audit", some ⟨.tap .stream, ["main"], ["2"], ⟨8, 18⟩⟩,
        [⟨"filter", some "t", [⟨"e", "a \u00e9", ⟨31, 41⟩⟩, ⟨"n", "1", ⟨42, 47⟩⟩],
            ⟨21, 47⟩⟩,
          ⟨"log", none, [], ⟨50, 53⟩⟩],
        some ⟨.queue, ["out"], [], ⟨56, 65⟩⟩, ⟨0, 65⟩⟩
    parse .stream text = .ok found ∧ found.Placed text := by
  intro text found
  have read : parse .stream text = .ok found := eq_ok_of_toOption (by decide +kernel)
  exact ⟨read, placed_of_parse .stream text found read⟩

end Pipeline

end Tapline
