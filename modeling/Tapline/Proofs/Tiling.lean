import Tapline.Proofs.Lexing

/-!
# Lexemes tile their text

From left to right, a text is made of ASCII blanks and of lexemes, each of which
stands for the characters it spans.  That is first stated as a derivation, one
step for a blank and one for a lexeme, with the offset at which the step begins.
Each piece that is read extends the derivation, so a whole text has one.

What a span is good for follows by induction on the derivation: it can be cut
out of the text, it lies behind all earlier ones, and what no span covers is
blank.  What a token keeps of its characters can be cut out as well: the name behind
the hyphens, and the pieces of a value between its quotes.
-/

namespace Tapline

def Span.Covers (span : Span) (offset : Nat) : Prop :=
  span.start ≤ offset ∧ offset < span.stop

instance (span : Span) (offset : Nat) : Decidable (span.Covers offset) :=
  inferInstanceAs (Decidable (_ ∧ _))

namespace Lexeme

/-- The text that begins at the offset is made of the lexemes, with blanks
before, between and behind them. -/
inductive Tiling : Nat → List Char → List Lexeme → Prop where
  | nil (offset : Nat) : Tiling offset [] []
  | blank {offset : Nat} {c : Char} {rest : List Char} {lexemes : List Lexeme} :
      Text.isAsciiBlank c = true → Tiling (offset + c.utf8Size) rest lexemes →
        Tiling offset (c :: rest) lexemes
  | lexeme {offset : Nat} {token : Token} {raw rest : List Char}
      {lexemes : List Lexeme} :
      token.SpelledBy raw rest → Tiling (offset + Text.byteLength raw) rest lexemes →
        Tiling offset (raw ++ rest)
          (⟨token, ⟨offset, offset + Text.byteLength raw⟩⟩ :: lexemes)

theorem Tiling.blanks {offset : Nat} {raw rest : List Char} {lexemes : List Lexeme}
    (blank : ∀ c ∈ raw, Text.isAsciiBlank c = true)
    (tiling : Tiling (offset + Text.byteLength raw) rest lexemes) :
    Tiling offset (raw ++ rest) lexemes := by
  induction raw generalizing offset with
  | nil => exact tiling
  | cons c raw induction =>
      rw [List.forall_mem_cons] at blank
      rw [Text.byteLength_cons, ← Nat.add_assoc] at tiling
      exact .blank blank.1 (induction blank.2 tiling)

/-- The lexemes of a text tile it, whatever the mode and wherever it begins. -/
theorem tiling_place (mode : LexMode) (text : List Char) (offset : Nat) :
    ∃ lexemes,
      place offset (Piece.ofText mode text) =
        lexemes ++ [⟨.endOfInput,
          ⟨offset + Text.byteLength text, offset + Text.byteLength text⟩⟩] ∧
      Tiling offset text lexemes := by
  fun_induction Piece.ofText mode text generalizing offset with
  | case1 => exact ⟨[], rfl, .nil offset⟩
  | case2 mode c rest induction =>
      -- Where the later pieces begin depends on this one only through its bytes.
      have whole := Piece.read_append mode c rest
      have faithful := Piece.faithful_read mode c rest
      generalize Piece.read mode c rest = found at whole faithful induction ⊢
      obtain ⟨piece, after⟩ := found
      obtain ⟨lexemes, placed, tiling⟩ :=
        induction (offset + Text.byteLength piece.raw)
      rw [← whole, Text.byteLength_append, ← Nat.add_assoc]
      cases piece with
      | blank raw => exact ⟨lexemes, placed, tiling.blanks faithful⟩
      | spelling raw token =>
          exact ⟨_ :: lexemes, congrArg _ placed, .lexeme faithful tiling⟩

namespace Tiling

variable {offset : Nat} {text : List Char} {lexemes : List Lexeme}

theorem bounds (tiling : Tiling offset text lexemes) :
    ∀ lexeme ∈ lexemes, offset ≤ lexeme.span.start ∧
      lexeme.span.start < lexeme.span.stop ∧
        lexeme.span.stop ≤ offset + Text.byteLength text := by
  induction tiling with
  | nil => simp
  | blank blank tiling induction =>
      intro lexeme member
      have inside := induction lexeme member
      rw [Text.byteLength_cons]
      omega
  | lexeme spelledBy tiling induction =>
      have positive := Text.byteLength_pos spelledBy.raw_ne_nil
      intro lexeme member
      rw [Text.byteLength_append]
      rcases List.mem_cons.mp member with rfl | later
      · simp only
        omega
      · have inside := induction lexeme later
        omega

theorem ordered (tiling : Tiling offset text lexemes) :
    lexemes.Pairwise fun earlier later => earlier.span.stop ≤ later.span.start := by
  induction tiling with
  | nil => exact .nil
  | blank blank tiling induction => exact induction
  | lexeme spelledBy tiling induction =>
      exact .cons (fun later member => (tiling.bounds later member).1) induction

/-- The spans cut the characters of their tokens out of the text, and what
follows them. -/
theorem slices (tiling : Tiling offset text lexemes) {before : List Char}
    (length : Text.byteLength before = offset) :
    ∀ lexeme ∈ lexemes, ∃ raw rest,
      Text.slice? (before ++ text) lexeme.span.start lexeme.span.stop = some raw ∧
      Text.slice? (before ++ text) lexeme.span.stop
        (offset + Text.byteLength text) = some rest ∧
      lexeme.token.SpelledBy raw rest := by
  -- What the derivation has passed joins the text before it.
  induction tiling generalizing before with
  | nil => simp
  | @blank offset c rest lexemes blank tiling induction =>
      have longer : Text.byteLength (before ++ [c]) = offset + c.utf8Size := by
        simp [length]
      have later := induction longer
      rwa [List.append_assoc, Nat.add_assoc] at later
  | @lexeme offset token raw rest lexemes spelledBy tiling induction =>
      have longer : Text.byteLength (before ++ raw) =
          offset + Text.byteLength raw := by
        simp [length]
      intro lexeme member
      rcases List.mem_cons.mp member with rfl | later
      · have inside := Text.slice?_append before raw rest
        have behind := Text.slice?_append (before ++ raw) rest []
        rw [length] at inside
        rw [longer, List.append_nil, List.append_assoc, Nat.add_assoc,
          ← Text.byteLength_append] at behind
        exact ⟨raw, rest, inside, behind, spelledBy⟩
      · have found := induction longer lexeme later
        rwa [List.append_assoc, Nat.add_assoc, ← Text.byteLength_append] at found

theorem stop_of_unterminated (tiling : Tiling offset text lexemes) {value : String} :
    ∀ lexeme ∈ lexemes, lexeme.token = .unterminated value →
      lexeme.span.stop = offset + Text.byteLength text := by
  induction tiling with
  | nil => simp
  | blank blank tiling induction =>
      intro lexeme member opened
      rw [induction lexeme member opened, Text.byteLength_cons, Nat.add_assoc]
  | lexeme spelledBy tiling induction =>
      intro lexeme member opened
      rcases List.mem_cons.mp member with rfl | later
      · obtain rfl := opened
        cases spelledBy with
        | unterminated => rw [List.append_nil]
      · rw [induction lexeme later opened, Text.byteLength_append, Nat.add_assoc]

/-- A byte that no span covers is a blank of its own. -/
theorem blank_of_uncovered (tiling : Tiling offset text lexemes) {before : List Char}
    (length : Text.byteLength before = offset) {position : Nat}
    (start : offset ≤ position) (stop : position < offset + Text.byteLength text)
    (uncovered : ∀ lexeme ∈ lexemes, ¬ lexeme.span.Covers position) :
    ∃ c, Text.slice? (before ++ text) position (position + 1) = some [c] ∧
      Text.isAsciiBlank c = true := by
  induction tiling generalizing before with
  | nil =>
      rw [Text.byteLength_nil] at stop
      omega
  | @blank offset c rest lexemes blank tiling induction =>
      -- The blank is one byte long, so no position lies inside it.
      have single := Text.utf8Size_of_isAsciiBlank blank
      by_cases here : position = offset
      · have inside := Text.slice?_append before [c] rest
        rw [length, Text.byteLength_cons, Text.byteLength_nil, single] at inside
        exact ⟨c, here ▸ inside, blank⟩
      · have longer : Text.byteLength (before ++ [c]) = offset + c.utf8Size := by
          simp [length]
        rw [Text.byteLength_cons] at stop
        have found := induction longer (by omega) (by omega) uncovered
        rwa [List.append_assoc] at found
  | @lexeme offset token raw rest lexemes spelledBy tiling induction =>
      have longer : Text.byteLength (before ++ raw) =
          offset + Text.byteLength raw := by
        simp [length]
      rw [List.forall_mem_cons] at uncovered
      have behind : offset + Text.byteLength raw ≤ position := by
        have outside := uncovered.1
        simp only [Span.Covers] at outside
        omega
      rw [Text.byteLength_append] at stop
      have found := induction longer behind (by omega) uncovered.2
      rwa [List.append_assoc] at found

end Tiling

/-- The text is made of the lexemes and of blanks, and loses nothing. -/
structure Tiled (text : String) (lexemes : List Lexeme) : Prop where
  start_lt_stop : ∀ lexeme ∈ lexemes, lexeme.span.start < lexeme.span.stop
  ordered : lexemes.Pairwise fun earlier later =>
    earlier.span.stop ≤ later.span.start
  /-- A token stands for the characters at its span, in front of the rest. -/
  spelled : ∀ lexeme ∈ lexemes, ∃ raw rest,
    Text.slice? text.toList lexeme.span.start lexeme.span.stop = some raw ∧
    Text.slice? text.toList lexeme.span.stop text.utf8ByteSize = some rest ∧
    lexeme.token.SpelledBy raw rest
  unterminated_stop : ∀ lexeme ∈ lexemes, ∀ value,
    lexeme.token = .unterminated value → lexeme.span.stop = text.utf8ByteSize
  /-- A byte between the spans is a character of its own, and blank. -/
  blank : ∀ position < text.utf8ByteSize,
    (∀ lexeme ∈ lexemes, ¬ lexeme.span.Covers position) →
      ∃ c, Text.slice? text.toList position (position + 1) = some [c] ∧
        Text.isAsciiBlank c = true

theorem Tiling.tiled {text : String} {lexemes : List Lexeme}
    (tiling : Tiling 0 text.toList lexemes) : Tiled text lexemes := by
  have length := Text.byteLength_toList text
  constructor
  · intro lexeme member
    exact (tiling.bounds lexeme member).2.1
  · exact tiling.ordered
  · have slices := tiling.slices Text.byteLength_nil
    rwa [Nat.zero_add, length] at slices
  · intro lexeme member value opened
    rw [tiling.stop_of_unterminated lexeme member opened, Nat.zero_add, length]
  · intro position inside uncovered
    apply tiling.blank_of_uncovered Text.byteLength_nil (Nat.zero_le position)
    · rwa [Nat.zero_add, length]
    · exact uncovered

/-- The value stands in the text behind a quote at the offset.  Whatever part of
it holds no such quote is cut out in one piece, behind the earlier part with its
quotes doubled. -/
structure QuotedAt (text : String) (start : Nat) (quote : Char)
    (value : String) : Prop where
  isQuote : Text.isQuote quote = true
  opening : Text.slice? text.toList start (start + 1) = some [quote]
  chunk : ∀ front chunk back, value.toList = front ++ (chunk ++ back) →
    quote ∉ chunk →
      Text.slice? text.toList
          (start + 1 + Text.byteLength (Text.doubleQuote quote front))
          (start + 1 + Text.byteLength (Text.doubleQuote quote front) +
            Text.byteLength chunk) =
        some chunk

theorem QuotedAt.of_slice? {text : String} {start stop : Nat} {quote : Char}
    {value closing : List Char} (isQuote : Text.isQuote quote = true)
    (found : Text.slice? text.toList start stop =
      some (quote :: (Text.doubleQuote quote value ++ closing))) :
    QuotedAt text start quote (String.ofList value) := by
  have single := Text.utf8Size_of_isQuote isQuote
  refine ⟨isQuote, ?_, ?_⟩
  · have first : Text.slice? text.toList start stop =
        some ([] ++ ([quote] ++ (Text.doubleQuote quote value ++ closing))) := found
    have opening := Text.slice?_inside first
    rwa [Text.byteLength_cons, single] at opening
  · intro front chunk back parts plain
    rw [String.toList_ofList] at parts
    have body : quote :: (Text.doubleQuote quote value ++ closing) =
        (quote :: Text.doubleQuote quote front) ++
          (chunk ++ (Text.doubleQuote quote back ++ closing)) := by
      rw [parts, Text.doubleQuote_append, Text.doubleQuote_append,
        Text.doubleQuote_of_not_mem plain]
      simp only [List.cons_append, List.append_assoc]
    rw [body] at found
    have inside := Text.slice?_inside found
    rwa [Text.byteLength_cons, single, ← Nat.add_assoc] at inside

namespace Tiled

variable {text : String} {lexemes : List Lexeme} {lexeme : Lexeme}

/-- The name of an argument is cut out of the text behind the two hyphens. -/
theorem slice_flag (tiled : Tiled text lexemes) (member : lexeme ∈ lexemes)
    {name : String} (flag : lexeme.token = .flag name) :
    Text.slice? text.toList (lexeme.span.start + 2) lexeme.span.stop =
      some name.toList := by
  obtain ⟨raw, rest, found, -, spelledBy⟩ := tiled.spelled lexeme member
  rw [flag] at spelledBy
  cases spelledBy with
  | @flag name =>
      have behind : Text.slice? text.toList
          (lexeme.span.start + Text.byteLength ['-', '-']) lexeme.span.stop =
            some name := Text.slice?_behind found
      rw [String.toList_ofList]
      exact behind

/-- A value is cut out of the text as a whole if it stands bare, and otherwise
from between its quotes. -/
theorem slice_literal (tiled : Tiled text lexemes) (member : lexeme ∈ lexemes)
    {value : String} (literal : lexeme.token = .literal value) :
    Text.slice? text.toList lexeme.span.start lexeme.span.stop =
        some value.toList ∨
      ∃ quote, QuotedAt text lexeme.span.start quote value := by
  obtain ⟨raw, rest, found, -, spelledBy⟩ := tiled.spelled lexeme member
  rw [literal] at spelledBy
  cases spelledBy with
  | bare noQuote => exact .inl (by rwa [String.toList_ofList])
  | quoted isQuote doubled single =>
      rw [← doubled] at found
      exact .inr ⟨_, .of_slice? isQuote found⟩

theorem slice_unterminated (tiled : Tiled text lexemes) (member : lexeme ∈ lexemes)
    {value : String} (opened : lexeme.token = .unterminated value) :
    ∃ quote, QuotedAt text lexeme.span.start quote value := by
  obtain ⟨raw, rest, found, -, spelledBy⟩ := tiled.spelled lexeme member
  rw [opened] at spelledBy
  cases spelledBy with
  | unterminated isQuote doubled single =>
      rw [← doubled, ← List.append_nil (Text.doubleQuote _ _)] at found
      exact ⟨_, .of_slice? isQuote found⟩

end Tiled

/-- The lexemes of a text end with the end of the input, which is empty, and the
others tile the text. -/
theorem ofText_tiled (text : String) :
    ∃ lexemes,
      ofText text =
        lexemes ++ [⟨.endOfInput, ⟨text.utf8ByteSize, text.utf8ByteSize⟩⟩] ∧
      Tiled text lexemes := by
  obtain ⟨lexemes, placed, tiling⟩ := tiling_place .ordinary text.toList 0
  rw [Nat.zero_add, Text.byteLength_toList] at placed
  exact ⟨lexemes, placed, tiling.tiled⟩

/-- A name is cut out behind its hyphens, and a value with a quote in it, which is
written twice, in two pieces. -/
theorem ofText_tiled_opened :
    let text := "\u00e9 --n='a''b"
    let lexemes : List Lexeme :=
      [⟨.unknown '\u00e9', ⟨0, 2⟩⟩, ⟨.flag "n", ⟨3, 6⟩⟩, ⟨.equals, ⟨6, 7⟩⟩,
        ⟨.unterminated "a'b", ⟨7, 12⟩⟩]
    ofText text = lexemes ++ [⟨.endOfInput, ⟨12, 12⟩⟩] ∧ Tiled text lexemes ∧
      Text.slice? text.toList 5 6 = some ['n'] ∧
        QuotedAt text 7 '\x27' "a'b" := by
  intro text lexemes
  have spelled : ofText text = lexemes ++ [⟨.endOfInput, ⟨12, 12⟩⟩] := by
    decide +kernel
  obtain ⟨found, same, tiled⟩ := ofText_tiled text
  obtain rfl : found = lexemes := List.append_inj_left' (same.symm.trans spelled) rfl
  have flag : ⟨.flag "n", ⟨3, 6⟩⟩ ∈ lexemes := by simp [lexemes]
  have value : ⟨.unterminated "a'b", ⟨7, 12⟩⟩ ∈ lexemes := by simp [lexemes]
  obtain ⟨quote, quoted⟩ := tiled.slice_unterminated value rfl
  have opening : Text.slice? text.toList 7 8 = some ['\x27'] := by decide +kernel
  obtain rfl : quote = '\x27' := by simpa [opening] using quoted.opening.symm
  exact ⟨spelled, tiled, tiled.slice_flag flag rfl, quoted⟩

end Lexeme

end Tapline
