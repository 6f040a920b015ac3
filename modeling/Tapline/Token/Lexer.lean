import Tapline.Text.Bytes
import Tapline.Text.Quoted
import Tapline.Text.Word
import Tapline.Token

/-!
# From text to lexemes

A text is first cut into pieces, each either a run of blanks or the spelling
of one token; the spellings and blanks concatenate to the text again
(`Piece.raw_ofText`).  Positions are then one running sum over the pieces.

How a piece is read depends on the piece before it only through a mode: right
after `--name=` a value is taken verbatim.
-/

namespace Tapline

/-- A stretch of the text: blanks, or the spelling of one token. -/
inductive Piece where
  | blank (raw : List Char)
  | spelling (raw : List Char) (token : Token)
deriving DecidableEq

/-- What was read last, as far as the next piece depends on it. -/
inductive LexMode where
  | ordinary
  /-- The last token was an argument name. -/
  | afterFlag
  /-- The last piece was the equals sign of an argument. -/
  | atValue
deriving DecidableEq

namespace Piece

def raw : Piece → List Char
  | .blank raw => raw
  | .spelling raw _ => raw

/-- Blanks may stand between an argument name and its equals sign, but not
between the equals sign and the value. -/
def next : LexMode → Piece → LexMode
  | .afterFlag, .blank _ => .afterFlag
  | _, .spelling _ (.flag _) => .afterFlag
  | .afterFlag, .spelling _ .equals => .atValue
  | _, _ => .ordinary

/-- A quoted value that begins with the quote `quote`, before `rest`. -/
def readQuotation (quote : Char) (rest : List Char) : Piece × List Char :=
  let body := Text.readQuoted quote rest
  let value := String.ofList body.value
  (.spelling (quote :: body.raw)
    (if body.closed then .literal value else .unterminated value), body.rest)

/-- A value directly after the equals sign of an argument. -/
def readValue (c : Char) (rest : List Char) : Piece × List Char :=
  if Text.isQuote c then
    readQuotation c rest
  else
    let value := c :: rest.takeWhile (!Text.endsValue ·)
    (.spelling value (.literal (String.ofList value)),
      rest.dropWhile (!Text.endsValue ·))

/-- A sign, word, number, argument name or quoted value beginning with `c`. -/
def readToken (c : Char) (rest : List Char) : Piece × List Char :=
  match c, rest with
  | '|', _ => (.spelling ['|'] .pipe, rest)
  | '.', _ => (.spelling ['.'] .dot, rest)
  | '>', _ => (.spelling ['>'] .arrow, rest)
  | '=', _ => (.spelling ['='] .equals, rest)
  | ';', _ => (.spelling [';'] .semicolon, rest)
  | ':', ':' :: after => (.spelling [':', ':'] .doubleColon, after)
  | ':', _ => (.spelling [':'] .colon, rest)
  | '-', '-' :: after =>
      let (name, after) := Text.splitWord after
      (.spelling ('-' :: '-' :: name) (.flag (String.ofList name)), after)
  | _, _ =>
      if Text.isQuote c then
        readQuotation c rest
      else if c.isDigit then
        let digits := c :: rest.takeWhile Char.isDigit
        (.spelling digits (.number (String.ofList digits)),
          rest.dropWhile Char.isDigit)
      else if Text.isWordStart c then
        let (word, after) := Text.splitWord rest
        (.spelling (c :: word) (.word (String.ofList (c :: word))), after)
      else
        (.spelling [c] (.unknown c), rest)

/-- The piece that begins with `c`, and what follows it. -/
def read (mode : LexMode) (c : Char) (rest : List Char) : Piece × List Char :=
  if mode = .atValue && !Text.endsValue c then
    readValue c rest
  else if Text.isAsciiBlank c then
    (.blank (c :: rest.takeWhile Text.isAsciiBlank),
      rest.dropWhile Text.isAsciiBlank)
  else
    readToken c rest

private theorem readQuotation_append (quote : Char) (rest : List Char) :
    (readQuotation quote rest).1.raw ++ (readQuotation quote rest).2 =
      quote :: rest := by
  simp [readQuotation, raw, Text.readQuoted_append]

private theorem readValue_append (c : Char) (rest : List Char) :
    (readValue c rest).1.raw ++ (readValue c rest).2 = c :: rest := by
  unfold readValue
  split
  · exact readQuotation_append c rest
  · simp [raw]

private theorem readToken_append (c : Char) (rest : List Char) :
    (readToken c rest).1.raw ++ (readToken c rest).2 = c :: rest := by
  unfold readToken
  split
  case h_9 =>
    split
    · exact readQuotation_append c rest
    · split
      · simp [raw]
      · split
        · simp [raw, Text.splitWord_append]
        · rfl
  all_goals simp [raw, Text.splitWord_append]

/-- Reading one piece loses nothing. -/
theorem read_append (mode : LexMode) (c : Char) (rest : List Char) :
    (read mode c rest).1.raw ++ (read mode c rest).2 = c :: rest := by
  unfold read
  split
  · exact readValue_append c rest
  · split
    · simp [raw]
    · exact readToken_append c rest

private theorem readQuotation_raw_ne_nil (quote : Char) (rest : List Char) :
    (readQuotation quote rest).1.raw ≠ [] := by
  simp [readQuotation, raw]

theorem read_raw_ne_nil (mode : LexMode) (c : Char) (rest : List Char) :
    (read mode c rest).1.raw ≠ [] := by
  unfold read
  split
  · unfold readValue
    split
    · exact readQuotation_raw_ne_nil c rest
    · simp [raw]
  · split
    · simp [raw]
    · unfold readToken
      split
      case h_9 =>
        split
        · exact readQuotation_raw_ne_nil c rest
        · split
          · simp [raw]
          · split <;> simp [raw]
      all_goals simp [raw]

theorem read_length_lt (mode : LexMode) (c : Char) (rest : List Char) :
    (read mode c rest).2.length < (c :: rest).length := by
  have whole := congrArg List.length (read_append mode c rest)
  have positive := List.length_pos_iff.mpr (read_raw_ne_nil mode c rest)
  simp only [List.length_append] at whole
  omega

/-- The pieces of a text, read in the given mode. -/
def ofText (mode : LexMode) : List Char → List Piece
  | [] => []
  | c :: rest =>
      (read mode c rest).1 ::
        ofText (next mode (read mode c rest).1) (read mode c rest).2
termination_by text => text.length
decreasing_by exact read_length_lt mode c rest

/-- The pieces of a text concatenate to the text. -/
theorem raw_ofText (mode : LexMode) (text : List Char) :
    (ofText mode text).flatMap raw = text := by
  fun_induction ofText mode text with
  | case1 => rfl
  | case2 mode c rest induction =>
      simp [induction, read_append]

end Piece

namespace Lexeme

/-- The lexemes among the pieces, the first of which starts at `offset`, and
after them the end of the input. -/
def place (offset : Nat) : List Piece → List Lexeme
  | [] => [⟨.endOfInput, ⟨offset, offset⟩⟩]
  | .blank raw :: pieces => place (offset + Text.byteLength raw) pieces
  | .spelling raw token :: pieces =>
      ⟨token, ⟨offset, offset + Text.byteLength raw⟩⟩ ::
        place (offset + Text.byteLength raw) pieces

/-- The lexemes of a text.  The last one is the end of the input. -/
def ofText (text : String) : List Lexeme :=
  place 0 (Piece.ofText .ordinary text.toList)

end Lexeme

end Tapline
