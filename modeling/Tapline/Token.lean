import Tapline.Span

/-!
# Tokens

The words and signs of the definition language.  Two tokens stand for lexical
problems, so that reading a text into tokens never fails: a character the
language does not know, and a quote that is never closed.
-/

namespace Tapline

/-- One token. -/
inductive Token where
  /-- A name, label or keyword. -/
  | word (text : String)
  /-- A run of ASCII digits. -/
  | number (digits : String)
  /-- An argument value, with its quotes removed. -/
  | literal (value : String)
  /-- An argument name written after `--`; it may be empty. -/
  | flag (name : String)
  | pipe
  | colon
  | doubleColon
  | dot
  | arrow
  | equals
  | semicolon
  /-- A character the language does not know. -/
  | unknown (character : Char)
  /-- A quoted value that runs to the end of the text. -/
  | unterminated (value : String)
  | endOfInput
deriving DecidableEq, Inhabited

namespace Token

def describe : Token → String
  | .word text => "identifier '" ++ text ++ "'"
  | .number digits => "number '" ++ digits ++ "'"
  | .literal value => "literal '" ++ value ++ "'"
  | .flag name => "option '--" ++ name ++ "'"
  | .pipe => "'|'"
  | .colon => "':'"
  | .doubleColon => "'::'"
  | .dot => "'.'"
  | .arrow => "'>'"
  | .equals => "'='"
  | .semicolon => "';'"
  | .unknown character => "'" ++ String.singleton character ++ "'"
  | .unterminated _ => "unterminated literal"
  | .endOfInput => "end of input"

end Token

/-- A token together with the bytes it was read from. -/
structure Lexeme where
  token : Token
  span : Span
deriving DecidableEq, Inhabited

end Tapline
