import Tapline.Diagnostic
import Tapline.Text.Hidden

/-!
# Failures

A failure says why a definition was refused, or why an operation on the
definitions could not be carried out.  In a message, a list of names is written in
brackets, each name between double quotes, so that any name can be told from its
neighbours.
-/

namespace Tapline

namespace Text

/-- A character as it is written between double quotes. -/
def listedChar : Char → String
  | '"' => "\\\""
  | '\\' => "\\\\"
  | '\n' => "\\n"
  | '\r' => "\\r"
  | '\t' => "\\t"
  | '\x00' => "\\0"
  | c =>
      if isHidden c then
        "\\u\x7b" ++ String.ofList (Nat.toDigits 16 c.toNat) ++ "\x7d"
      else
        String.singleton c

def listedName (name : String) : String :=
  "\"" ++ String.join (name.toList.map listedChar) ++ "\""

/-- The names in brackets, with commas between them. -/
def listing (names : List String) : String :=
  "[" ++ ", ".intercalate (names.map listedName) ++ "]"

end Text

/-- Why a definition or an operation on definitions was refused. -/
inductive Failure where
  | parse (name : String) (diagnostic : Diagnostic)
  | resolution (name : String) (diagnostic : Diagnostic)
  | nameMismatch (name declared : String)
  | selfTap (name : String)
  | alreadyExists (name : String)
  | notFound (name : String)
  | inUse (name : String) (dependents : List String)
  | tooLong (name : String) (length limit : Nat)
  | storage (message : String)
deriving DecidableEq, Inhabited

namespace Failure

/-- The name of the definition concerned; empty if there is none. -/
def name : Failure → String
  | .parse name _ | .resolution name _ | .nameMismatch name _ | .selfTap name
  | .alreadyExists name | .notFound name | .inUse name _ | .tooLong name _ _ => name
  | .storage _ => ""

/-- The diagnostic behind the failure, if its text is at fault. -/
def diagnostic? : Failure → Option Diagnostic
  | .parse _ diagnostic | .resolution _ diagnostic => some diagnostic
  | _ => none

def message : Failure → String
  | .parse name diagnostic | .resolution name diagnostic =>
      name ++ ": " ++ diagnostic.message
  | .nameMismatch name declared =>
      "definition '" ++ name ++ "' is declared as '" ++ declared ++ "' in its text"
  | .selfTap name => "definition '" ++ name ++ "' cannot tap itself"
  | .alreadyExists name => "definition '" ++ name ++ "' already exists"
  | .notFound name => "definition '" ++ name ++ "' not found"
  | .inUse name dependents =>
      "definition '" ++ name ++ "' is still tapped by " ++ Text.listing dependents
  | .tooLong name length limit =>
      "definition '" ++ name ++ "' is " ++ toString length ++
        " bytes, the limit is " ++ toString limit
  | .storage message => "storage error: " ++ message

end Failure

end Tapline
