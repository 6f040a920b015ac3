import Tapline.Proofs.Tiling

/-!
# Texts behind one another

A blank ends whatever is in front of it, unless that is a value whose quote is still
open.  So the lexemes of a text stay what they are when more text follows behind a
blank.  How the rest is read depends on the text in front of it only through the mode
in which that leaves the reader, and every pipe sets the reader back.
-/

namespace Tapline

namespace Text

/-- Nothing in front of the text goes on with it. -/
def Separated (rest : List Char) : Prop :=
  ∀ c ∈ rest.head?, isAsciiBlank c = true

variable {rest : List Char}

theorem Separated.endsWord (separated : Separated rest) : EndsWord rest := by
  intro c first
  have blank := separated c first
  constructor
  · rw [← Bool.not_eq_true]
    intro wordChar
    rw [isAsciiBlank_of_isWordChar wordChar] at blank
    cases blank
  · rintro rfl
    cases blank

theorem Separated.endsValue (separated : Separated rest) :
    ∀ c ∈ rest.head?, (!endsValue c) = false := by
  intro c first
  simp [Text.endsValue, separated c first]

private theorem Separated.head?_ne_quote (separated : Separated rest) {quote : Char}
    (isQuote : Text.isQuote quote = true) : rest.head? ≠ some quote := by
  intro first
  have blank := separated quote first
  simp only [Text.isQuote, Bool.or_eq_true, beq_iff_eq] at isQuote
  rcases isQuote with rfl | rfl <;> cases blank

private theorem Separated.head?_append_ne (separated : Separated rest) {text : List Char}
    {c : Char} (visible : isAsciiBlank c = false) (other : text.head? ≠ some c) :
    (text ++ rest).head? ≠ some c := by
  cases text with
  | cons d text => exact other
  | nil =>
      intro first
      rw [separated c first] at visible
      cases visible

private theorem splitWord_before (ends : EndsWord rest) (text : List Char) :
    splitWord (text ++ rest) = ((splitWord text).1, (splitWord text).2 ++ rest) := by
  induction text with
  | nil => exact splitWord_of_endsWord ends
  | cons c text induction =>
      have same : continuesWord c (text ++ rest) = continuesWord c text := by
        cases text with
        | cons d text => rfl
        | nil =>
            cases first : rest.head? with
            | none => simp [continuesWord, first]
            | some d => simp [continuesWord, first, (ends d first).1]
      by_cases continues : continuesWord c text = true
      · rw [List.cons_append, splitWord_cons (same.trans continues), induction,
          splitWord_cons continues]
      · simp [splitWord, same, continues]

private theorem takeWhile_before {p : Char → Bool} (stops : ∀ c ∈ rest.head?, p c = false)
    (text : List Char) : (text ++ rest).takeWhile p = text.takeWhile p := by
  induction text with
  | nil => cases rest <;> simp_all
  | cons c text induction => simp [List.takeWhile_cons, induction]

private theorem dropWhile_before {p : Char → Bool} (stops : ∀ c ∈ rest.head?, p c = false)
    (text : List Char) : (text ++ rest).dropWhile p = text.dropWhile p ++ rest := by
  induction text with
  | nil => cases rest <;> simp_all
  | cons c text induction =>
      by_cases goesOn : p c = true
      · simp [goesOn, induction]
      · simp [goesOn]

private theorem readQuoted_before {quote : Char} (ends : rest.head? ≠ some quote)
    {text : List Char} (closed : (readQuoted quote text).closed = true) :
    readQuoted quote (text ++ rest) =
      { readQuoted quote text with rest := (readQuoted quote text).rest ++ rest } := by
  fun_induction readQuoted quote text with
  | case1 => cases closed
  | case2 after induction => simp [readQuoted, induction closed, QuotedBody.push]
  | case3 d after different => simp [readQuoted, different]
  | case4 =>
      cases rest with
      | nil => simp [readQuoted]
      | cons d after =>
          have different : d ≠ quote := by simpa using ends
          simp [readQuoted, different]
  | case5 c text different induction =>
      rw [List.cons_append, readQuoted_cons_of_ne _ different, induction closed]
      rfl

end Text

namespace Piece

open Text (Separated)

/-- Anything but a value whose quote is still open. -/
def isClosed : Piece → Bool
  | .spelling _ (.unterminated _) => false
  | _ => true

theorem readToken_quotation {c : Char} (text : List Char)
    (isQuote : Text.isQuote c = true) : readToken c text = readQuotation c text := by
  simp only [Text.isQuote, Bool.or_eq_true, beq_iff_eq] at isQuote
  rcases isQuote with rfl | rfl <;> rfl

theorem readToken_dash {text : List Char} (single : text.head? ≠ some '-') :
    readToken '-' text = (.spelling ['-'] (.unknown '-'), text) := by
  cases text with
  | nil => rfl
  | cons c text =>
      have different : c ≠ '-' := by simpa using single
      have plain : Text.isQuote '-' = false ∧ Text.isWordStart '-' = false := by decide
      simp [readToken, different, plain]

variable {c : Char} {text rest : List Char}

private theorem readQuotation_before (separated : Separated rest)
    (isQuote : Text.isQuote c = true)
    (closed : (readQuotation c text).1.isClosed = true) :
    readQuotation c (text ++ rest) =
      ((readQuotation c text).1, (readQuotation c text).2 ++ rest) := by
  have ended : (Text.readQuoted c text).closed = true := by
    cases ended : (Text.readQuoted c text).closed with
    | true => rfl
    | false => simp [readQuotation, ended, isClosed] at closed
  simp [readQuotation, Text.readQuoted_before (separated.head?_ne_quote isQuote) ended]

private theorem readValue_before (separated : Separated rest)
    (closed : (readValue c text).1.isClosed = true) :
    readValue c (text ++ rest) = ((readValue c text).1, (readValue c text).2 ++ rest) := by
  unfold readValue at closed ⊢
  split at closed
  · rename_i isQuote
    simp only [isQuote, if_true]
    exact readQuotation_before separated isQuote closed
  · rename_i noQuote
    simp [noQuote, Text.takeWhile_before separated.endsValue,
      Text.dropWhile_before separated.endsValue]

private theorem readToken_before (separated : Separated rest)
    (closed : (readToken c text).1.isClosed = true) :
    readToken c (text ++ rest) = ((readToken c text).1, (readToken c text).2 ++ rest) := by
  have endsWord := separated.endsWord
  by_cases start : Text.isWordStart c = true
  · rw [readToken_word _ start, readToken_word _ start, Text.splitWord_before endsWord]
  by_cases digit : c.isDigit = true
  · have stops := Text.isDigit_of_endsWord endsWord
    rw [readToken_number _ digit, readToken_number _ digit, Text.takeWhile_before stops,
      Text.dropWhile_before stops]
  by_cases isQuote : Text.isQuote c = true
  · rw [readToken_quotation _ isQuote] at closed ⊢
    rw [readToken_quotation _ isQuote]
    exact readQuotation_before separated isQuote closed
  -- Of the signs, only the colon and the dash look at what comes next.
  by_cases colon : c = ':'
  · subst colon
    by_cases twice : text.head? = some ':'
    · obtain ⟨after, rfl⟩ := List.head?_eq_some_iff.mp twice
      rfl
    · rw [readToken_colon twice,
        readToken_colon (separated.head?_append_ne (by decide) twice)]
  by_cases dash : c = '-'
  · subst dash
    by_cases twice : text.head? = some '-'
    · obtain ⟨after, rfl⟩ := List.head?_eq_some_iff.mp twice
      simp [readToken, Text.splitWord_before endsWord]
    · rw [readToken_dash twice,
        readToken_dash (separated.head?_append_ne (by decide) twice)]
  unfold readToken
  split <;> simp_all

/-- What was read stays what it is when more text follows behind a blank. -/
theorem read_before {mode : LexMode} {raw after : List Char} {token : Token}
    (separated : Separated rest) (reads : read mode c text = (.spelling raw token, after))
    (closed : (spelling raw token).isClosed = true) :
    read mode c (text ++ rest) = (.spelling raw token, after ++ rest) := by
  unfold read at reads ⊢
  split at reads
  · rename_i value
    rw [if_pos value, readValue_before separated (by rw [reads]; exact closed), reads]
  · rename_i noValue
    split at reads
    · cases reads
    · rename_i visible
      rw [if_neg noValue, if_neg visible,
        readToken_before separated (by rw [reads]; exact closed), reads]

end Piece

/-- The mode behind a blank. -/
def LexMode.pastBlank : LexMode → LexMode
  | .afterFlag => .afterFlag
  | _ => .ordinary

theorem LexMode.pastBlank_pastBlank (mode : LexMode) :
    mode.pastBlank.pastBlank = mode.pastBlank := by
  cases mode <;> rfl

namespace Lexeme

/-- The same token somewhere else. -/
def mapSpan (move : Span → Span) (lexeme : Lexeme) : Lexeme :=
  { lexeme with span := move lexeme.span }

/-- The lexemes of a text that begins at the offset and is read in the given mode. -/
def scan (mode : LexMode) (offset : Nat) (text : List Char) : List Lexeme :=
  place offset (Piece.ofText mode text)

theorem place_shift (distance offset : Nat) (pieces : List Piece) :
    place (offset + distance) pieces =
      (place offset pieces).map (mapSpan (.shift distance)) := by
  induction pieces generalizing offset with
  | nil => rfl
  | cons piece pieces induction =>
      have further (raw : List Char) : offset + distance + Text.byteLength raw =
          offset + Text.byteLength raw + distance := Nat.add_right_comm _ _ _
      cases piece with
      | blank raw => simp [place, further, induction]
      | spelling raw token => simp [place, further, induction, mapSpan, Span.shift]

theorem scan_shift (mode : LexMode) (distance offset : Nat) (text : List Char) :
    scan mode (offset + distance) text =
      (scan mode offset text).map (mapSpan (.shift distance)) :=
  place_shift distance offset _

variable {mode : LexMode} {offset : Nat} {c : Char} {rest after raw : List Char}
  {token : Token}

theorem scan_spelling (reads : Piece.read mode c rest = (.spelling raw token, after)) :
    scan mode offset (c :: rest) =
      ⟨token, ⟨offset, offset + Text.byteLength raw⟩⟩ ::
        scan (Piece.next mode (.spelling raw token)) (offset + Text.byteLength raw)
          after := by
  rw [scan, Piece.ofText, reads]
  rfl

theorem next_blank (mode : LexMode) (raw : List Char) :
    Piece.next mode (.blank raw) = mode.pastBlank := by
  cases mode <;> rfl

theorem scan_run (reads : Piece.read mode c rest = (.blank raw, after)) :
    scan mode offset (c :: rest) =
      scan mode.pastBlank (offset + Text.byteLength raw) after := by
  rw [scan, Piece.ofText, reads, ← next_blank mode raw]
  rfl

theorem read_blank (mode : LexMode) (rest : List Char)
    (blank : Text.isAsciiBlank c = true) :
    Piece.read mode c rest =
      (.blank (c :: rest.takeWhile Text.isAsciiBlank),
        rest.dropWhile Text.isAsciiBlank) := by
  simp [Piece.read, Text.endsValue, blank]

theorem scan_blank (mode : LexMode) (offset : Nat) (rest : List Char)
    (blank : Text.isAsciiBlank c = true) :
    scan mode offset (c :: rest) = scan mode.pastBlank (offset + c.utf8Size) rest := by
  rw [scan_run (read_blank mode rest blank), Text.byteLength_cons, ← Nat.add_assoc]
  cases rest with
  | nil => rfl
  | cons d rest =>
      by_cases another : Text.isAsciiBlank d = true
      · rw [scan_run (read_blank mode.pastBlank rest another), mode.pastBlank_pastBlank,
          List.takeWhile_cons_of_pos another, List.dropWhile_cons_of_pos another]
      · rw [List.takeWhile_cons_of_neg another, List.dropWhile_cons_of_neg another]
        rfl

theorem scan_blanks (mode : LexMode) (offset : Nat) (rest : List Char)
    (nonempty : raw ≠ []) (blank : ∀ c ∈ raw, Text.isAsciiBlank c = true) :
    scan mode offset (raw ++ rest) =
      scan mode.pastBlank (offset + Text.byteLength raw) rest := by
  induction raw generalizing mode offset with
  | nil => exact (nonempty rfl).elim
  | cons c raw induction =>
      rw [List.forall_mem_cons] at blank
      rw [List.cons_append, scan_blank mode offset _ blank.1, Text.byteLength_cons,
        ← Nat.add_assoc]
      cases raw with
      | nil => rfl
      | cons d raw =>
          rw [induction _ _ (List.cons_ne_nil d raw) blank.2, mode.pastBlank_pastBlank]

/-- The lexemes of a text are there as well if more text follows behind a blank, and
then come those of the rest, read in the mode in which the text has left the reader. -/
theorem scan_append (offset : Nat) {text : List Char} (separated : Text.Separated rest)
    (closed : ∀ piece ∈ Piece.ofText mode text, piece.isClosed = true) :
    ∃ lexemes last,
      scan mode offset text = lexemes ++
        [⟨.endOfInput, ⟨offset + Text.byteLength text, offset + Text.byteLength text⟩⟩] ∧
      scan mode offset (text ++ rest) =
        lexemes ++ scan last (offset + Text.byteLength text) rest := by
  fun_induction Piece.ofText mode text generalizing offset with
  | case1 mode => exact ⟨[], mode, by simp [scan, Piece.ofText, place], rfl⟩
  | case2 mode c text induction =>
      rw [List.forall_mem_cons] at closed
      obtain ⟨here, later⟩ := closed
      have whole := Piece.read_append mode c text
      have nonempty := Piece.read_raw_ne_nil mode c text
      have faithful := Piece.faithful_read mode c text
      generalize reads : Piece.read mode c text = found
        at whole nonempty faithful here later induction
      obtain ⟨piece, after⟩ := found
      dsimp only at whole nonempty here later
      obtain ⟨lexemes, last, alone, followed⟩ :=
        induction (offset + Text.byteLength piece.raw) later
      rw [← whole, Text.byteLength_append, ← Nat.add_assoc]
      cases piece with
      | blank raw =>
          rw [next_blank] at alone followed
          have blanks (rest : List Char) :=
            scan_blanks mode offset rest nonempty faithful
          refine ⟨lexemes, last, (blanks after).trans alone, ?_⟩
          rw [List.append_assoc]
          exact (blanks (after ++ rest)).trans followed
      | spelling raw token =>
          have stays := Piece.read_before separated reads here
          let lexeme : Lexeme := ⟨token, ⟨offset, offset + Text.byteLength raw⟩⟩
          refine ⟨lexeme :: lexemes, last, ?_, ?_⟩
          · rw [whole, scan_spelling reads]
            exact congrArg (lexeme :: ·) alone
          · rw [whole, List.cons_append, scan_spelling stays]
            exact congrArg (lexeme :: ·) followed

/-- The character is a token in whatever mode a blank leaves the reader, and it sets the
reader back. -/
structure IsSign (sign : Char) (token : Token) : Prop where
  size : sign.utf8Size = 1
  reads : ∀ (mode : LexMode) (rest : List Char),
    Piece.read mode.pastBlank sign rest = (.spelling [sign] token, rest)
  settles : ∀ mode : LexMode,
    Piece.next mode.pastBlank (.spelling [sign] token) = .ordinary

theorem isSign_pipe : IsSign '|' .pipe where
  size := rfl
  reads mode rest := by cases mode <;> rfl
  settles mode := by cases mode <;> rfl

theorem isSign_arrow : IsSign '>' .arrow where
  size := rfl
  reads mode rest := by cases mode <;> rfl
  settles mode := by cases mode <;> rfl

/-- The lexemes of two texts with a sign between them. -/
theorem ofText_sign {sign : Char} {token : Token} (isSign : IsSign sign token)
    {left right both : String}
    (closed : ∀ piece ∈ Piece.ofText .ordinary left.toList, piece.isClosed = true)
    (together : both.toList = left.toList ++ ' ' :: sign :: ' ' :: right.toList) :
    let length := left.utf8ByteSize
    ∃ lexemes, ofText left = lexemes ++ [⟨.endOfInput, ⟨length, length⟩⟩] ∧
      ofText both =
        lexemes ++ ⟨token, ⟨length + 1, length + 2⟩⟩ ::
          (ofText right).map (mapSpan (.shift (length + 3))) := by
  intro length
  have separated : Text.Separated (' ' :: sign :: ' ' :: right.toList) := by
    rintro c ⟨⟩
    rfl
  obtain ⟨lexemes, last, alone, followed⟩ := scan_append 0 separated closed
  rw [Nat.zero_add, Text.byteLength_toList] at alone followed
  refine ⟨lexemes, alone, ?_⟩
  have width : Text.byteLength [sign] = 1 := by
    rw [Text.byteLength_cons, Text.byteLength_nil, isSign.size]
  rw [ofText, together]
  refine followed.trans (congrArg (lexemes ++ ·) ?_)
  rw [scan_blank last length _ rfl, scan_spelling (isSign.reads last _),
    isSign.settles last, scan_blank .ordinary _ _ rfl, width]
  have further := scan_shift .ordinary (length + 3) 0 right.toList
  rw [Nat.zero_add] at further
  exact congrArg _ further

@[inherit_doc ofText_sign]
theorem ofText_pipe {left : String}
    (closed : ∀ piece ∈ Piece.ofText .ordinary left.toList, piece.isClosed = true)
    (right : String) :
    let length := left.utf8ByteSize
    ∃ lexemes, ofText left = lexemes ++ [⟨.endOfInput, ⟨length, length⟩⟩] ∧
      ofText (left ++ " | " ++ right) =
        lexemes ++ ⟨.pipe, ⟨length + 1, length + 2⟩⟩ ::
          (ofText right).map (mapSpan (.shift (length + 3))) :=
  ofText_sign isSign_pipe closed (by simp)

end Lexeme

end Tapline
