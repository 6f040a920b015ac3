import Tapline.Json.Value

/-!
# Reading JSON

The reader accepts exactly the documents of the JSON grammar, with blanks
around every part.  Each reading function returns what it read together with
the characters that follow.

Every step of the recursion either consumes a character or goes from a list or
record to its first part, so twice as many steps as there are characters are
enough; `read?` allows that many.

An escape in a text spells a UTF-16 code unit.  Characters beyond the basic plane take
two such units, a high surrogate and a low one, and a surrogate without its partner
spells nothing.  A character that is not escaped counts as one unit whatever its size.
-/

namespace Tapline.Json

def isHighSurrogate (unit : Nat) : Bool :=
  0xD800 ≤ unit && unit < 0xDC00

def isLowSurrogate (unit : Nat) : Bool :=
  0xDC00 ≤ unit && unit < 0xE000

/-- The character that a pair of surrogates spells. -/
def pairedChar (high low : Nat) : Char :=
  Char.ofNat (0x10000 + (high - 0xD800) * 0x400 + (low - 0xDC00))

/-- The characters that units spell, if every surrogate has its partner. -/
def charsOfUnits? : List Nat → Option (List Char)
  | [] => some []
  | unit :: units =>
      if isHighSurrogate unit then
        match units with
        | [] => none
        | low :: rest =>
            if isLowSurrogate low then
              (charsOfUnits? rest).map (pairedChar unit low :: ·)
            else
              none
      else if isLowSurrogate unit then
        none
      else
        (charsOfUnits? units).map (Char.ofNat unit :: ·)

/-- The blanks that may stand around the parts of a document. -/
def isJsonBlank (c : Char) : Bool :=
  c == ' ' || c == '\n' || c == '\t' || c == '\r'

def skipBlanks (input : List Char) : List Char :=
  input.dropWhile isJsonBlank

/-- The value of a hexadecimal digit in either case. -/
def hexValue? (c : Char) : Option Nat :=
  if '0' ≤ c ∧ c ≤ '9' then some (c.toNat - '0'.toNat)
  else if 'a' ≤ c ∧ c ≤ 'f' then some (c.toNat - 'a'.toNat + 10)
  else if 'A' ≤ c ∧ c ≤ 'F' then some (c.toNat - 'A'.toNat + 10)
  else none

/-- The unit that four hexadecimal digits spell. -/
def hexUnit? (a b c d : Char) : Option Nat := do
  let a ← hexValue? a
  let b ← hexValue? b
  let c ← hexValue? c
  let d ← hexValue? d
  some (((a * 16 + b) * 16 + c) * 16 + d)

/-- The unit that a single character behind a backslash stands for. -/
def shortEscape? : Char → Option Nat
  | '"' => some 0x22
  | '\\' => some 0x5C
  | '/' => some 0x2F
  | 'b' => some 0x08
  | 'f' => some 0x0C
  | 'n' => some 0x0A
  | 'r' => some 0x0D
  | 't' => some 0x09
  | _ => none

/-- The units of a text up to its closing quote. -/
def readUnits : List Char → Option (List Nat × List Char)
  | [] => none
  | '"' :: rest => some ([], rest)
  | '\\' :: 'u' :: a :: b :: c :: d :: rest => do
      let unit ← hexUnit? a b c d
      let (units, rest) ← readUnits rest
      some (unit :: units, rest)
  | '\\' :: escaped :: rest => do
      let unit ← shortEscape? escaped
      let (units, rest) ← readUnits rest
      some (unit :: units, rest)
  | c :: rest =>
      if c.toNat < 0x20 || c == '\\' then
        none
      else do
        let (units, rest) ← readUnits rest
        some (c.toNat :: units, rest)

def readText (input : List Char) : Option (Option String × List Char) := do
  let (units, rest) ← readUnits input
  some ((charsOfUnits? units).map String.ofList, rest)

def readDigits (input : List Char) : Option (List Char × List Char) :=
  let digits := input.takeWhile Char.isDigit
  if digits.isEmpty then none else some (digits, input.dropWhile Char.isDigit)

/-- The digits before the point, without superfluous zeros. -/
def readWhole : List Char → Option (List Char × List Char)
  | '0' :: rest => some (['0'], rest)
  | input => readDigits input

/-- A point and the digits behind it, if there is a point. -/
def readFraction : List Char → Option (List Char × List Char)
  | '.' :: rest => do
      let (digits, rest) ← readDigits rest
      some ('.' :: digits, rest)
  | input => some ([], input)

/-- A sign, if there is one of the given signs. -/
def readSign (signs : List Char) : List Char → List Char × List Char
  | c :: rest => if c ∈ signs then ([c], rest) else ([], c :: rest)
  | [] => ([], [])

def readExponent : List Char → Option (List Char × List Char)
  | c :: rest =>
      if c = 'e' ∨ c = 'E' then do
        let (sign, rest) := readSign ['+', '-'] rest
        let (digits, rest) ← readDigits rest
        some (c :: (sign ++ digits), rest)
      else
        some ([], c :: rest)
  | [] => some ([], [])

def readNumber (input : List Char) : Option (List Char × List Char) := do
  let (sign, rest) := readSign ['-'] input
  let (whole, rest) ← readWhole rest
  let (fraction, rest) ← readFraction rest
  let (exponent, rest) ← readExponent rest
  some (sign ++ whole ++ fraction ++ exponent, rest)

mutual

def readValue : Nat → List Char → Option (Json × List Char)
  | 0, _ => none
  | steps + 1, input =>
      match skipBlanks input with
      | 'n' :: 'u' :: 'l' :: 'l' :: rest => some (.null, rest)
      | 't' :: 'r' :: 'u' :: 'e' :: rest => some (.bool true, rest)
      | 'f' :: 'a' :: 'l' :: 's' :: 'e' :: rest => some (.bool false, rest)
      | '"' :: rest => do
          let (content, rest) ← readText rest
          some (.text content, rest)
      | '[' :: rest =>
          match skipBlanks rest with
          | ']' :: rest => some (.list [], rest)
          | rest => do
              let (items, rest) ← readItems steps rest
              some (.list items, rest)
      | '\x7b' :: rest =>
          match skipBlanks rest with
          | '\x7d' :: rest => some (.record [], rest)
          | rest => do
              let (fields, rest) ← readFields steps rest
              some (.record fields, rest)
      | rest => do
          let (literal, rest) ← readNumber rest
          some (.number (String.ofList literal), rest)

/-- One or more items and the closing bracket. -/
def readItems : Nat → List Char → Option (List Json × List Char)
  | 0, _ => none
  | steps + 1, input => do
      let (item, rest) ← readValue steps input
      match skipBlanks rest with
      | ']' :: rest => some ([item], rest)
      | ',' :: rest => do
          let (items, rest) ← readItems steps rest
          some (item :: items, rest)
      | _ => none

/-- One or more fields and the closing brace. -/
def readFields : Nat → List Char → Option (List (Option String × Json) × List Char)
  | 0, _ => none
  | steps + 1, input =>
      match skipBlanks input with
      | '"' :: rest => do
          let (name, rest) ← readText rest
          match skipBlanks rest with
          | ':' :: rest => do
              let (value, rest) ← readValue steps rest
              match skipBlanks rest with
              | '\x7d' :: rest => some ([(name, value)], rest)
              | ',' :: rest => do
                  let (fields, rest) ← readFields steps rest
                  some ((name, value) :: fields, rest)
              | _ => none
          | _ => none
      | _ => none

end

/-- The value of a document, if the text is one. -/
def read? (input : String) : Option Json :=
  let characters := input.toList
  match readValue (2 * characters.length + 2) characters with
  | some (value, rest) => if skipBlanks rest = [] then some value else none
  | none => none

end Tapline.Json
