import Tapline.Json.Value

/-!
# Printing JSON

Values are printed over several lines: every item and field on a line of its
own, indented by two spaces for each enclosing list or record, and an empty
list or record on the line where it stands.
-/

namespace Tapline.Json

def hexDigit (value : Nat) : Char :=
  (Nat.toDigits 16 (value % 16)).headD '0'

/-- A character inside quotes.  Only quotes, backslashes and control characters
below the space are escaped. -/
def writeChar (c : Char) : List Char :=
  if c = '"' then ['\\', '"']
  else if c = '\\' then ['\\', '\\']
  else if c = '\x08' then ['\\', 'b']
  else if c = '\x0c' then ['\\', 'f']
  else if c = '\n' then ['\\', 'n']
  else if c = '\r' then ['\\', 'r']
  else if c = '\t' then ['\\', 't']
  else if c.toNat < 0x20 then
    ['\\', 'u', '0', '0', hexDigit (c.toNat / 16), hexDigit c.toNat]
  else [c]

/-- A text between quotes.  A text without content is written as the escape of
a lone surrogate, which has none either. -/
def writeText : Option String → List Char
  | some content => '"' :: (content.toList.flatMap writeChar ++ ['"'])
  | none => "\"\\ud800\"".toList

/-- The start of a line at a depth of nesting. -/
def newLine (depth : Nat) : List Char :=
  '\n' :: List.replicate (2 * depth) ' '

mutual

def write (depth : Nat) : Json → List Char
  | .null => "null".toList
  | .bool true => "true".toList
  | .bool false => "false".toList
  | .number literal => literal.toList
  | .text content => writeText content
  | .list [] => ['[', ']']
  | .list (item :: items) =>
      '[' :: (newLine (depth + 1) ++ write (depth + 1) item ++
        writeItems (depth + 1) items ++ newLine depth ++ [']'])
  | .record [] => ['\x7b', '\x7d']
  | .record ((name, value) :: fields) =>
      '\x7b' :: (newLine (depth + 1) ++ writeText name ++ [':', ' '] ++
        write (depth + 1) value ++ writeFields (depth + 1) fields ++
        newLine depth ++ ['\x7d'])

def writeItems (depth : Nat) : List Json → List Char
  | [] => []
  | item :: items =>
      ',' :: (newLine depth ++ write depth item ++ writeItems depth items)

def writeFields (depth : Nat) : List (Option String × Json) → List Char
  | [] => []
  | (name, value) :: fields =>
      ',' :: (newLine depth ++ writeText name ++ [':', ' '] ++
        write depth value ++ writeFields depth fields)

end

/-- The text of a document that holds one value. -/
def pretty (value : Json) : String :=
  String.ofList (write 0 value)

end Tapline.Json
