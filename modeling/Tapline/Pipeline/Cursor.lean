import Tapline.Diagnostic
import Tapline.Token

/-!
# Cursors over lexemes

A cursor is a place in a list of lexemes: the lexeme under it and those ahead.
It never leaves the list, so that on a list without an end of input it comes to
rest on the last lexeme.
-/

namespace Tapline

/-- A place in a list of lexemes. -/
structure Cursor where
  /-- The span of the lexeme passed last. -/
  before : Span
  current : Lexeme
  ahead : List Lexeme
deriving DecidableEq, Inhabited

namespace Cursor

/-- The beginning of a list.  An empty list reads as the end of an empty text. -/
def ofLexemes : List Lexeme → Cursor
  | [] => ⟨.origin, ⟨.endOfInput, .origin⟩, []⟩
  | current :: ahead => ⟨.origin, current, ahead⟩

def token (cursor : Cursor) : Token :=
  cursor.current.token

/-- The span of the lexeme under the cursor. -/
def span (cursor : Cursor) : Span :=
  cursor.current.span

/-- The token after the one under the cursor. -/
def nextToken (cursor : Cursor) : Token :=
  match cursor.ahead with
  | [] => .endOfInput
  | next :: _ => next.token

/-- The cursor one lexeme further, or the same cursor on the last lexeme. -/
def advance (cursor : Cursor) : Cursor :=
  match cursor.ahead with
  | [] => cursor
  | next :: ahead => ⟨cursor.current.span, next, ahead⟩

/-- A problem at the lexeme under the cursor. -/
def failure (cursor : Cursor) (problem : Problem) : Diagnostic :=
  ⟨problem, cursor.span⟩

/-- Reports the token under the cursor, as a lexical problem if it is one and
otherwise as the problem made from its description. -/
def unexpected (cursor : Cursor) (make : String → Problem) : Diagnostic :=
  cursor.failure <|
    match cursor.token with
    | .unknown character => .unexpectedCharacter (String.singleton character)
    | .unterminated _ => .unterminatedLiteral
    | token => make token.describe

theorem advance_ahead_le (cursor : Cursor) :
    cursor.advance.ahead.length ≤ cursor.ahead.length := by
  unfold advance
  split
  · exact Nat.le_refl _
  · rename_i equality
    simp [equality]

theorem advance_ahead_lt {cursor : Cursor}
    (moved : cursor.advance.token ≠ cursor.token) :
    cursor.advance.ahead.length < cursor.ahead.length := by
  unfold advance at moved ⊢
  split
  · rename_i equality
    simp [equality] at moved
  · rename_i equality
    simp [equality]

end Cursor

end Tapline
