import Tapline.Proofs.Separation

/-!
# Texts that end earlier

A reader that looks past the end of a piece does so only to see whether the piece goes
on.  It does not, and it still does not if the text ends behind the piece or anywhere
further on.  So the pieces of a text are those of the text up to the end of any of them,
and a mode apart they are those of the text from the beginning of any of them.

In the same way the lexemes of a text are split where its pieces are.
-/

namespace Tapline

/-- Whether a module, a channel or an argument may begin with the token. -/
def Token.opensPhrase : Token → Bool
  | .word _ | .flag _ => true
  | _ => false

namespace Text

variable {text kept cut : List Char}

private theorem head?_ne_of_append {c : Char} (other : (kept ++ cut).head? ≠ some c) :
    kept.head? ≠ some c := by
  cases kept with
  | nil => nofun
  | cons d kept => exact other

/-- What does not go on with a word does not do so when it ends earlier. -/
theorem continuesWord_of_cut {c : Char} (goesOn : continuesWord c kept = true) :
    continuesWord c (kept ++ cut) = true := by
  cases kept with
  | cons d kept => exact goesOn
  | nil =>
      have wordChar : isWordChar c = true := by simpa [continuesWord] using goesOn
      simp [continuesWord, wordChar]

private theorem splitWord_cut (rest : (splitWord text).2 = kept ++ cut) :
    splitWord ((splitWord text).1 ++ kept) = ((splitWord text).1, kept) := by
  induction text with
  | nil =>
      obtain ⟨rfl, -⟩ := List.nil_eq_append_iff.mp rest
      rfl
  | cons c text induction =>
      by_cases continues : continuesWord c text = true
      · rw [splitWord_cons continues] at rest ⊢
        have same : continuesWord c ((splitWord text).1 ++ kept) = true := by
          by_cases wordChar : isWordChar c = true
          · simp [continuesWord, wordChar]
          -- A hyphen goes on because a character of the word comes next.
          · cases text with
            | nil => simp [continuesWord, wordChar] at continues
            | cons d text =>
                have joins : c = '-' ∧ isWordChar d = true := by
                  simpa [continuesWord, wordChar] using continues
                have later : continuesWord d text = true := by
                  simp [continuesWord, joins.2]
                rw [splitWord_cons later]
                simp [continuesWord, joins]
        rw [List.cons_append, splitWord_cons same, induction rest]
      · have stops : splitWord (c :: text) = ([], c :: text) := by
          simp [splitWord, continues]
        rw [stops] at rest ⊢
        cases kept with
        | nil => rfl
        | cons d kept =>
            obtain ⟨rfl, rfl⟩ := List.cons.inj rest
            have stopped := mt continuesWord_of_cut continues
            simp [splitWord, stopped]

private theorem takeWhile_cut {p : Char → Bool} (rest : text.dropWhile p = kept ++ cut) :
    (text.takeWhile p ++ kept).takeWhile p = text.takeWhile p ∧
      (text.takeWhile p ++ kept).dropWhile p = kept := by
  have taken : ∀ c ∈ text.takeWhile p, p c = true :=
    fun c inside => List.all_eq_true.mp List.all_takeWhile c inside
  have stops : kept.takeWhile p = [] ∧ kept.dropWhile p = kept := by
    cases kept with
    | nil => exact ⟨rfl, rfl⟩
    | cons c kept =>
        have stopped : ¬p c = true := by
          have head := List.head?_dropWhile_not p text
          rw [rest] at head
          simpa using head
        simp [stopped]
  rw [List.takeWhile_append_of_pos taken, List.dropWhile_append_of_pos taken, stops.1,
    stops.2, List.append_nil]
  exact ⟨rfl, rfl⟩

private theorem readQuoted_cut {quote : Char} (closed : (readQuoted quote text).closed = true)
    (rest : (readQuoted quote text).rest = kept ++ cut) :
    readQuoted quote ((readQuoted quote text).raw ++ kept) =
      { readQuoted quote text with rest := kept } := by
  fun_induction readQuoted quote text with
  | case1 => cases closed
  | case2 after induction =>
      have inner := induction closed rest
      simp [QuotedBody.push, readQuoted, inner]
  | case3 d after different =>
      cases kept with
      | nil => simp [readQuoted]
      | cons e kept =>
          obtain ⟨rfl, -⟩ := List.cons.inj rest
          simp [readQuoted, different]
  | case4 =>
      obtain ⟨rfl, -⟩ := List.nil_eq_append_iff.mp rest
      simp [readQuoted]
  | case5 c text different induction =>
      have inner := induction closed rest
      simp [QuotedBody.push, readQuoted_cons_of_ne _ different, inner]

end Text

namespace Piece

variable {mode : LexMode} {c : Char} {text kept cut : List Char} {piece : Piece}

private theorem readQuotation_cut (reads : readQuotation c text = (piece, kept ++ cut))
    (closed : piece.isClosed = true) :
    readQuotation c (piece.raw.tail ++ kept) = (piece, kept) := by
  obtain ⟨rfl, rest⟩ := Prod.mk.inj reads
  have ended : (Text.readQuoted c text).closed = true := by
    cases ended : (Text.readQuoted c text).closed with
    | true => rfl
    | false => simp [ended, isClosed] at closed
  simp [readQuotation, raw, Text.readQuoted_cut ended rest]

private theorem readValue_cut (reads : readValue c text = (piece, kept ++ cut))
    (closed : piece.isClosed = true) :
    readValue c (piece.raw.tail ++ kept) = (piece, kept) := by
  unfold readValue at reads ⊢
  split at reads
  · rename_i isQuote
    rw [if_pos isQuote]
    exact readQuotation_cut reads closed
  · rename_i noQuote
    rw [if_neg noQuote]
    obtain ⟨rfl, rest⟩ := Prod.mk.inj reads
    obtain ⟨taken, left⟩ := Text.takeWhile_cut rest
    simp [raw, taken, left]

private theorem readToken_cut (reads : readToken c text = (piece, kept ++ cut))
    (closed : piece.isClosed = true) :
    readToken c (piece.raw.tail ++ kept) = (piece, kept) := by
  by_cases start : Text.isWordStart c = true
  · rw [readToken_word _ start] at reads ⊢
    obtain ⟨rfl, rest⟩ := Prod.mk.inj reads
    simp [raw, Text.splitWord_cut rest]
  by_cases digit : c.isDigit = true
  · rw [readToken_number _ digit] at reads ⊢
    obtain ⟨rfl, rest⟩ := Prod.mk.inj reads
    obtain ⟨taken, left⟩ := Text.takeWhile_cut rest
    simp [raw, taken, left]
  by_cases isQuote : Text.isQuote c = true
  · rw [readToken_quotation _ isQuote] at reads ⊢
    exact readQuotation_cut reads closed
  by_cases colon : c = ':'
  · subst colon
    by_cases twice : text.head? = some ':'
    · obtain ⟨after, rfl⟩ := List.head?_eq_some_iff.mp twice
      obtain ⟨rfl, -⟩ := Prod.mk.inj reads
      rfl
    · rw [readToken_colon twice] at reads
      obtain ⟨rfl, rfl⟩ := Prod.mk.inj reads
      exact readToken_colon (Text.head?_ne_of_append twice)
  by_cases dash : c = '-'
  · subst dash
    by_cases twice : text.head? = some '-'
    · obtain ⟨after, rfl⟩ := List.head?_eq_some_iff.mp twice
      obtain ⟨rfl, rest⟩ := Prod.mk.inj reads
      simp [readToken, raw, Text.splitWord_cut rest]
    · rw [readToken_dash twice] at reads
      obtain ⟨rfl, rfl⟩ := Prod.mk.inj reads
      exact readToken_dash (Text.head?_ne_of_append twice)
  -- Everything else is a single character, whatever comes next.
  unfold readToken at reads ⊢
  split at reads
  case h_6 | h_7 => exact (colon rfl).elim
  case h_8 => exact (dash rfl).elim
  case h_9 =>
    obtain ⟨rfl, -⟩ : spelling [c] (.unknown c) = piece ∧ text = kept ++ cut := by
      simpa [isQuote, digit, start] using reads
    split <;> simp_all [raw]
  all_goals
    obtain ⟨rfl, -⟩ := Prod.mk.inj reads
    rfl

/-- What was read is read as well if the text ends further on. -/
theorem read_cut (reads : read mode c text = (piece, kept ++ cut))
    (closed : piece.isClosed = true) :
    read mode c (piece.raw.tail ++ kept) = (piece, kept) := by
  unfold read at reads ⊢
  split at reads
  · rename_i value
    rw [if_pos value]
    exact readValue_cut reads closed
  · rename_i noValue
    rw [if_neg noValue]
    split at reads
    · rename_i blank
      rw [if_pos blank]
      obtain ⟨rfl, rest⟩ := Prod.mk.inj reads
      obtain ⟨taken, left⟩ := Text.takeWhile_cut rest
      simp [raw, taken, left]
    · rename_i visible
      rw [if_neg visible]
      exact readToken_cut reads closed

private theorem raw_eq_cons (reads : (read mode c text).1 = piece) :
    piece.raw = c :: piece.raw.tail := by
  have whole := read_append mode c text
  have nonempty := read_raw_ne_nil mode c text
  rw [reads] at whole nonempty
  obtain ⟨d, raw, same⟩ := List.exists_cons_of_ne_nil nonempty
  rw [same, List.cons_append] at whole
  rw [same, (List.cons.inj whole).1, List.tail_cons]

/-- The text up to the end of a piece has the pieces up to that one. -/
theorem ofText_cut {front back : List Piece} (pieces : ofText mode text = front ++ back)
    (closed : ∀ piece ∈ front, piece.isClosed = true) :
    ofText mode (front.flatMap raw) = front := by
  induction front generalizing mode text with
  | nil => simp [ofText]
  | cons piece front induction =>
      rw [List.forall_mem_cons] at closed
      cases text with
      | nil => simp [ofText] at pieces
      | cons c text =>
          rw [ofText, List.cons_append, List.cons.injEq] at pieces
          obtain ⟨first, later⟩ := pieces
          have behind := raw_ofText (next mode (read mode c text).1) (read mode c text).2
          rw [later, List.flatMap_append] at behind
          have reads : read mode c text =
              (piece, front.flatMap raw ++ back.flatMap raw) :=
            Prod.ext first behind.symm
          rw [List.flatMap_cons, raw_eq_cons first, List.cons_append, ofText,
            read_cut reads closed.1, induction (first ▸ later) closed.2]

theorem ofText_behind {front back : List Piece}
    (pieces : ofText mode text = front ++ back) :
    ofText (front.foldl next mode) (back.flatMap raw) = back := by
  induction front generalizing mode text with
  | nil =>
      have whole := raw_ofText mode text
      rw [pieces, List.nil_append] at whole
      rw [whole]
      exact pieces
  | cons piece front induction =>
      cases text with
      | nil => simp [ofText] at pieces
      | cons c text =>
          rw [ofText, List.cons_append, List.cons.injEq] at pieces
          obtain ⟨rfl, later⟩ := pieces
          exact induction later

private theorem opensPhrase_readValue {raw : List Char} {token : Token}
    (read : (readValue c text).1 = .spelling raw token) : token.opensPhrase = false := by
  unfold readValue readQuotation at read
  split at read
  · obtain ⟨-, rfl⟩ := Piece.spelling.inj read
    split <;> rfl
  · obtain ⟨-, rfl⟩ := Piece.spelling.inj read
    rfl

/-- A word or an argument name is the same in all modes, and so is what follows. -/
theorem ofText_of_opensPhrase {raw : List Char} {token : Token} {pieces : List Piece}
    (opens : token.opensPhrase = true)
    (read : ofText mode text = .spelling raw token :: pieces) :
    ofText .ordinary text = .spelling raw token :: pieces := by
  cases text with
  | nil => simp [ofText] at read
  | cons c text =>
      rw [ofText, List.cons.injEq] at read
      obtain ⟨first, later⟩ := read
      have same : Piece.read .ordinary c text = Piece.read mode c text := by
        unfold Piece.read at first ⊢
        split at first
        · rw [opensPhrase_readValue first] at opens
          cases opens
        · rename_i noValue
          rw [if_neg noValue]
          rfl
      have settled : next .ordinary (.spelling raw token) =
          next mode (.spelling raw token) := by
        cases token with
        | word | flag => cases mode <;> rfl
        | _ => cases opens
      rw [ofText, same, first, settled, ← first, later]

end Piece

namespace Lexeme

theorem offset_cons (offset : Nat) (piece : Piece) (pieces : List Piece) :
    offset + Text.byteLength ((piece :: pieces).flatMap Piece.raw) =
      offset + Text.byteLength piece.raw + Text.byteLength (pieces.flatMap Piece.raw) := by
  rw [List.flatMap_cons, Text.byteLength_append, Nat.add_assoc]

/-- Where a lexeme begins, the pieces are split in two. -/
theorem exists_pieces_from {offset : Nat} {pieces : List Piece}
    {passed rest : List Lexeme} {first : Lexeme}
    (split : place offset pieces = passed ++ first :: rest)
    (proper : first.token ≠ .endOfInput) :
    ∃ before raw after, pieces = before ++ .spelling raw first.token :: after ∧
      offset + Text.byteLength (before.flatMap Piece.raw) = first.span.start ∧
      place first.span.start (.spelling raw first.token :: after) = first :: rest := by
  induction pieces generalizing offset passed with
  | nil =>
      have inside : first ∈ place offset [] := split ▸ List.mem_append_cons_self
      exact (proper (congrArg Lexeme.token (List.mem_singleton.mp inside))).elim
  | cons piece pieces induction =>
      cases piece with
      | blank raw =>
          obtain ⟨before, spelled, after, rfl, start, placed⟩ := induction split
          exact ⟨.blank raw :: before, spelled, after, rfl,
            (offset_cons offset _ before).trans start, placed⟩
      | spelling raw token =>
          cases passed with
          | nil =>
              obtain ⟨rfl, rfl⟩ := List.cons.inj split
              exact ⟨[], raw, pieces, rfl, rfl, rfl⟩
          | cons lexeme passed =>
              obtain ⟨-, later⟩ := List.cons.inj split
              obtain ⟨before, spelled, after, rfl, start, placed⟩ := induction later
              exact ⟨.spelling raw token :: before, spelled, after, rfl,
                (offset_cons offset _ before).trans start, placed⟩

theorem exists_pieces_upto {offset : Nat} {pieces : List Piece}
    {used rest : List Lexeme} {last : Lexeme}
    (split : place offset pieces = used ++ last :: rest)
    (proper : last.token ≠ .endOfInput) :
    ∃ front back, pieces = front ++ back ∧
      offset + Text.byteLength (front.flatMap Piece.raw) = last.span.stop ∧
      place offset front =
        (used ++ [last]) ++ [⟨.endOfInput, ⟨last.span.stop, last.span.stop⟩⟩] := by
  induction pieces generalizing offset used with
  | nil =>
      have inside : last ∈ place offset [] := split ▸ List.mem_append_cons_self
      exact (proper (congrArg Lexeme.token (List.mem_singleton.mp inside))).elim
  | cons piece pieces induction =>
      cases piece with
      | blank raw =>
          obtain ⟨front, back, rfl, stop, placed⟩ := induction split
          exact ⟨.blank raw :: front, back, rfl,
            (offset_cons offset _ front).trans stop, placed⟩
      | spelling raw token =>
          cases used with
          | nil =>
              obtain ⟨rfl, -⟩ := List.cons.inj split
              exact ⟨[.spelling raw token], pieces, rfl, by simp [Piece.raw], rfl⟩
          | cons lexeme used =>
              obtain ⟨rfl, later⟩ := List.cons.inj split
              obtain ⟨front, back, rfl, stop, placed⟩ := induction later
              exact ⟨.spelling raw token :: front, back, rfl,
                (offset_cons offset _ front).trans stop, congrArg (_ :: ·) placed⟩

theorem exists_pieces {offset : Nat} {pieces : List Piece}
    {passed used rest : List Lexeme} {first last : Lexeme}
    (split : place offset pieces = passed ++ (used ++ rest))
    (atHead : used.head? = some first) (atEnd : used.getLast? = some last)
    (proper : ∀ lexeme ∈ used, lexeme.token ≠ .endOfInput) :
    ∃ before raw inner back,
      let front := .spelling raw first.token :: inner
      pieces = before ++ (front ++ back) ∧
        offset + Text.byteLength (before.flatMap Piece.raw) = first.span.start ∧
          first.span.start + Text.byteLength (front.flatMap Piece.raw) =
              last.span.stop ∧
            place first.span.start front =
              used ++ [⟨.endOfInput, ⟨last.span.stop, last.span.stop⟩⟩] := by
  have firstProper := proper first (List.mem_of_head? atHead)
  have lastProper := proper last (List.mem_of_getLast? atEnd)
  obtain ⟨more, same⟩ := List.head?_eq_some_iff.mp atHead
  obtain ⟨init, rfl⟩ := List.getLast?_eq_some_iff.mp atEnd
  have fromFirst : place offset pieces = passed ++ first :: (more ++ rest) := by
    rw [split, same, List.cons_append]
  obtain ⟨before, raw, after, rfl, start, placed⟩ :=
    exists_pieces_from fromFirst firstProper
  have uptoLast : place first.span.start (.spelling raw first.token :: after) =
      init ++ last :: rest := by
    rw [placed, ← List.cons_append, ← same, List.append_assoc, List.singleton_append]
  obtain ⟨front, back, parted, stop, placedFront⟩ :=
    exists_pieces_upto uptoLast lastProper
  cases front with
  | nil =>
      have lengths := congrArg List.length placedFront
      simp [place] at lengths
  | cons piece inner =>
      obtain ⟨rfl, rfl⟩ := List.cons.inj parted
      exact ⟨before, raw, inner, back, rfl, start, stop, placedFront⟩

end Lexeme

end Tapline
