import Tapline.Proofs.Spelling
import Tapline.Token.Lexer

/-!
# Lexing written fragments

Every fragment that a printer writes reads back as the tokens it was written
from, whatever follows it, so long as that does not go on with the fragment.
In the other direction every token of a text is spelled as its sort demands.
-/

namespace Tapline

namespace Piece

def token? : Piece → Option Token
  | .blank _ => none
  | .spelling _ token => some token

/-- The tokens of a text, read in the given mode. -/
def tokens (mode : LexMode) (text : List Char) : List Token :=
  (ofText mode text).filterMap token?

@[simp] theorem tokens_nil (mode : LexMode) : tokens mode [] = [] := by
  simp [tokens, ofText]

theorem tokens_of_read {mode : LexMode} {c : Char} {rest after : List Char}
    {piece : Piece} (reads : read mode c rest = (piece, after)) :
    tokens mode (c :: rest) =
      piece.token?.toList ++ tokens (next mode piece) after := by
  rw [tokens, ofText, reads]
  cases piece <;> simp [List.filterMap_cons, token?, tokens]

theorem read_of_not_blank (mode : LexMode) {c : Char} (rest : List Char)
    (ordinary : mode ≠ .atValue) (visible : Text.isAsciiBlank c = false) :
    read mode c rest = readToken c rest := by
  simp [read, ordinary, visible]

theorem readToken_word {c : Char} (rest : List Char)
    (start : Text.isWordStart c = true) :
    readToken c rest =
      (.spelling (c :: (Text.splitWord rest).1)
        (.word (String.ofList (c :: (Text.splitWord rest).1))),
        (Text.splitWord rest).2) := by
  unfold readToken
  split
  case h_9 =>
    have noQuote := Text.isQuote_of_isWordChar (Text.isWordChar_of_isWordStart start)
    simp [noQuote, Text.isDigit_of_isWordStart start, start]
  all_goals simp [Text.isWordStart] at start

theorem readToken_number {c : Char} (rest : List Char)
    (digit : c.isDigit = true) :
    readToken c rest =
      (.spelling (c :: rest.takeWhile Char.isDigit)
        (.number (String.ofList (c :: rest.takeWhile Char.isDigit))),
        rest.dropWhile Char.isDigit) := by
  unfold readToken
  split
  case h_9 =>
    have noQuote := Text.isQuote_of_isWordChar (Text.isWordChar_of_isDigit digit)
    simp [noQuote, digit]
  all_goals simp at digit

/-- Blanks are blank, and a token stands for the characters it was read from. -/
def Faithful : Piece → List Char → Prop
  | .blank raw, _ => ∀ c ∈ raw, Text.isAsciiBlank c = true
  | .spelling raw token, rest => token.SpelledBy raw rest

private theorem faithful_readQuotation {quote : Char} (rest : List Char)
    (isQuote : Text.isQuote quote = true) :
    (readQuotation quote rest).1.Faithful (readQuotation quote rest).2 := by
  have raw := Text.raw_readQuoted quote rest
  have collapses :=
    Text.undoubleQuote_doubleQuote quote (Text.readQuoted quote rest).value
  cases closed : (Text.readQuoted quote rest).closed with
  | true =>
      simp only [readQuotation, raw, closed, if_true, Faithful]
      exact .quoted isQuote rfl collapses
  | false =>
      have ends := Text.rest_readQuoted_of_open closed
      simp only [readQuotation, raw, closed, ends, Bool.false_eq_true, if_false,
        List.append_nil, Faithful]
      exact .unterminated isQuote rfl collapses

private theorem faithful_readValue (c : Char) (rest : List Char) :
    (readValue c rest).1.Faithful (readValue c rest).2 := by
  unfold readValue
  split
  · rename_i isQuote
    exact faithful_readQuotation rest isQuote
  · rename_i noQuote
    exact .bare (Bool.eq_false_iff.mpr noQuote)

private theorem faithful_readToken (c : Char) (rest : List Char) :
    (readToken c rest).1.Faithful (readToken c rest).2 := by
  by_cases start : Text.isWordStart c = true
  · rw [readToken_word rest start]
    exact .word (.intro start (Text.wordTail_splitWord rest))
  · by_cases digit : c.isDigit = true
    · rw [readToken_number rest digit]
      exact .number (.intro digit fun d inside =>
        List.all_eq_true.mp List.all_takeWhile d inside)
    · unfold readToken
      split
      case h_8 => exact .flag (Text.wordTail_splitWord _)
      case h_9 =>
        split
        · rename_i isQuote
          exact faithful_readQuotation rest isQuote
        · exact .unknown c
      all_goals constructor

/-- A piece says what its characters are. -/
theorem faithful_read (mode : LexMode) (c : Char) (rest : List Char) :
    (read mode c rest).1.Faithful (read mode c rest).2 := by
  unfold read
  split
  · exact faithful_readValue c rest
  · split
    · rename_i blank
      intro d member
      rcases List.mem_cons.mp member with rfl | later
      · exact blank
      · exact List.all_eq_true.mp List.all_takeWhile d later
    · exact faithful_readToken c rest

theorem Faithful.spelled {piece : Piece} {rest : List Char} {token : Token}
    (faithful : piece.Faithful rest) (member : token ∈ piece.token?) :
    token.Spelled := by
  cases piece with
  | blank raw => cases member
  | spelling raw written =>
      obtain rfl : written = token := Option.some.inj member
      exact Token.SpelledBy.spelled faithful

theorem spelled_of_mem_tokens {mode : LexMode} {text : List Char} {token : Token}
    (member : token ∈ tokens mode text) : token.Spelled := by
  fun_induction ofText mode text with
  | case1 => simp at member
  | case2 mode c rest induction =>
      rw [tokens_of_read rfl, List.mem_append] at member
      rcases member with here | later
      · rw [Option.mem_toList] at here
        exact (faithful_read mode c rest).spelled here
      · exact induction later

@[simp] theorem tokens_pipe (rest : List Char) :
    tokens .ordinary ('|' :: rest) = .pipe :: tokens .ordinary rest :=
  tokens_of_read rfl

@[simp] theorem tokens_dot (rest : List Char) :
    tokens .ordinary ('.' :: rest) = .dot :: tokens .ordinary rest :=
  tokens_of_read rfl

@[simp] theorem tokens_arrow (rest : List Char) :
    tokens .ordinary ('>' :: rest) = .arrow :: tokens .ordinary rest :=
  tokens_of_read rfl

@[simp] theorem tokens_equals (rest : List Char) :
    tokens .ordinary ('=' :: rest) = .equals :: tokens .ordinary rest :=
  tokens_of_read rfl

theorem readToken_colon {text : List Char} (single : text.head? ≠ some ':') :
    readToken ':' text = (.spelling [':'] .colon, text) := by
  cases text with
  | nil => rfl
  | cons c text =>
      have different : c ≠ ':' := by simpa using single
      simp [readToken, different]

theorem tokens_colon {rest : List Char} (single : rest.head? ≠ some ':') :
    tokens .ordinary (':' :: rest) = .colon :: tokens .ordinary rest := by
  have visible : Text.isAsciiBlank ':' = false := rfl
  have reads := read_of_not_blank .ordinary rest (by simp) visible
  exact tokens_of_read (reads.trans (readToken_colon single))

theorem tokens_dropBlanks (text : List Char) :
    tokens .ordinary (text.dropWhile Text.isAsciiBlank) =
      tokens .ordinary text := by
  cases text with
  | nil => rfl
  | cons c rest =>
      by_cases blank : Text.isAsciiBlank c = true
      · have reads : read .ordinary c rest =
            (.blank (c :: rest.takeWhile Text.isAsciiBlank),
              rest.dropWhile Text.isAsciiBlank) := by
          simp [read, blank]
        rw [tokens_of_read reads, List.dropWhile_cons_of_pos blank]
        rfl
      · rw [List.dropWhile_cons_of_neg blank]

@[simp] theorem tokens_space (rest : List Char) :
    tokens .ordinary (' ' :: rest) = tokens .ordinary rest := by
  rw [← tokens_dropBlanks (' ' :: rest), ← tokens_dropBlanks rest]
  rfl

theorem tokens_word {text : String} {rest : List Char}
    (isWord : Text.IsWord text.toList) (ends : Text.EndsWord rest) :
    tokens .ordinary (text.toList ++ rest) = .word text :: tokens .ordinary rest := by
  generalize spelling : text.toList = word at isWord
  cases isWord with
  | @intro c word start tail =>
      have visible :=
        Text.isAsciiBlank_of_isWordChar (Text.isWordChar_of_isWordStart start)
      have reads := (read_of_not_blank .ordinary (word ++ rest) (by simp)
        visible).trans (readToken_word (word ++ rest) start)
      rw [tail.splitWord_append ends] at reads
      rw [List.cons_append, tokens_of_read reads, ← spelling]
      simp [token?, next]

theorem tokens_number {digits : String} {rest : List Char}
    (isNumber : Text.IsNumber digits.toList) (ends : Text.EndsWord rest) :
    tokens .ordinary (digits.toList ++ rest) =
      .number digits :: tokens .ordinary rest := by
  generalize spelling : digits.toList = number at isNumber
  cases isNumber with
  | @intro c number digit tail =>
      have visible :=
        Text.isAsciiBlank_of_isWordChar (Text.isWordChar_of_isDigit digit)
      have reads := (read_of_not_blank .ordinary (number ++ rest) (by simp)
        visible).trans (readToken_number (number ++ rest) digit)
      have stops : rest.takeWhile Char.isDigit = [] ∧
          rest.dropWhile Char.isDigit = rest := by
        cases rest with
        | nil => simp
        | cons d after => simp [Text.isDigit_of_endsWord ends d rfl]
      rw [List.takeWhile_append_of_pos tail, List.dropWhile_append_of_pos tail,
        stops.1, stops.2, List.append_nil] at reads
      rw [List.cons_append, tokens_of_read reads, ← spelling]
      simp [token?, next]

/-- A text that ends a bare value in front of it. -/
def EndsValue (rest : List Char) : Prop :=
  ∀ c ∈ rest.head?, Text.endsValue c = true

theorem read_writeValue (value : List Char) {rest : List Char}
    (ends : EndsValue rest) :
    ∃ c after, Text.writeValue value ++ rest = c :: after ∧
      read .atValue c after =
        (.spelling (Text.writeValue value) (.literal (String.ofList value)),
          rest) := by
  unfold Text.writeValue
  split
  · rename_i bare
    cases value with
    | nil => simp [Text.standsBare] at bare
    | cons c value =>
        simp only [Text.standsBare, List.isEmpty_cons, Bool.not_false,
          List.head?_cons, Option.any_some, Bool.true_and, Bool.and_eq_true,
          Bool.not_eq_true', List.any_eq_false] at bare
        obtain ⟨noQuote, noEnd⟩ := bare
        have goesOn : ∀ d ∈ c :: value, (!Text.endsValue d) = true := by
          intro d member
          have plain := noEnd d member
          simp only [Bool.or_eq_true, not_or, Bool.not_eq_true,
            beq_eq_false_iff_ne] at plain
          have noBlank : Text.isAsciiBlank d = false := by
            rw [← Bool.not_eq_true]
            intro blank
            rw [Text.isBlank_of_isAsciiBlank blank] at plain
            exact Bool.noConfusion plain.1.1
          simp [Text.endsValue, noBlank, plain.1.2, plain.2]
        have stops : rest.takeWhile (!Text.endsValue ·) = [] ∧
            rest.dropWhile (!Text.endsValue ·) = rest := by
          cases rest with
          | nil => simp
          | cons d after => simp [ends d rfl]
        have goesOnLater : ∀ d ∈ value, (!Text.endsValue d) = true :=
          fun d member => goesOn d (List.mem_cons_of_mem _ member)
        refine ⟨c, value ++ rest, rfl, ?_⟩
        have first := goesOn c List.mem_cons_self
        simp only [read, first, readValue, noQuote]
        rw [List.takeWhile_append_of_pos goesOnLater,
          List.dropWhile_append_of_pos goesOnLater, stops.1, stops.2]
        simp
  · have noQuote : rest.head? ≠ some '\x27' := by
      intro quote
      have ending := ends _ quote
      exact absurd ending (by decide)
    refine ⟨'\x27', Text.doubleQuote '\x27' value ++ '\x27' :: rest, by simp, ?_⟩
    simp only [read, readValue, readQuotation,
      Text.readQuoted_doubleQuote '\x27' value rest noQuote]
    rfl

theorem tokens_value (value : String) {rest : List Char} (ends : EndsValue rest) :
    tokens .atValue (Text.writeValue value.toList ++ rest) =
      .literal value :: tokens .ordinary rest := by
  obtain ⟨c, after, written, reads⟩ := read_writeValue value.toList ends
  rw [written, tokens_of_read reads]
  simp [token?, next]

/-- An argument name ends where its equals sign stands. -/
theorem read_argumentName {name : String} (spelled : Text.WordTail name.toList)
    (rest : List Char) :
    read .ordinary '-' ('-' :: (name.toList ++ '=' :: rest)) =
      (.spelling ('-' :: '-' :: name.toList) (.flag name), '=' :: rest) := by
  have ends : Text.EndsWord ('=' :: rest) := by
    rintro c ⟨⟩
    decide
  rw [read_of_not_blank _ _ (by simp) rfl]
  simp only [readToken, spelled.splitWord_append ends, String.ofList_toList]

theorem tokens_argument {name : String} (value : String) {rest : List Char}
    (spelled : Text.WordTail name.toList) (ends : EndsValue rest) :
    tokens .ordinary
        ('-' :: '-' :: (name.toList ++
          '=' :: (Text.writeValue value.toList ++ rest))) =
      .flag name :: .equals :: .literal value :: tokens .ordinary rest := by
  have reads := read_argumentName spelled (Text.writeValue value.toList ++ rest)
  have equals : tokens .afterFlag ('=' :: (Text.writeValue value.toList ++ rest)) =
      .equals :: tokens .atValue (Text.writeValue value.toList ++ rest) :=
    tokens_of_read rfl
  rw [tokens_of_read reads]
  change .flag name :: tokens .afterFlag _ = _
  rw [equals, tokens_value value ends]

end Piece

theorem Lexeme.map_token_place (offset : Nat) (pieces : List Piece) :
    (place offset pieces).map Lexeme.token =
      pieces.filterMap Piece.token? ++ [.endOfInput] := by
  induction pieces generalizing offset with
  | nil => rfl
  | cons piece pieces induction =>
      cases piece <;>
        simp [place, List.filterMap_cons, Piece.token?, induction]

theorem Lexeme.map_token_ofText (text : String) :
    (ofText text).map Lexeme.token =
      Piece.tokens .ordinary text.toList ++ [.endOfInput] :=
  map_token_place 0 _

end Tapline
