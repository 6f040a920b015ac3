/-!
# Words and numbers

A word is made of ASCII letters, digits and underscores, with single hyphens
between them: `aggregate-counter`.  A hyphen belongs to a word only when a
word character follows it directly.  Words may be compared in any letter case;
only the ASCII letters have one, and every other character is equal to itself
alone.  A number is a run of ASCII digits.
-/

namespace Tapline.Text

/-- An ASCII letter, an ASCII digit or an underscore. -/
def isWordChar (c : Char) : Bool :=
  c.isAlphanum || c == '_'

/-- A word character that is not a digit. -/
def isWordStart (c : Char) : Bool :=
  c.isAlpha || c == '_'

/-- Whether a word goes on with `c` when `rest` comes after it. -/
def continuesWord (c : Char) (rest : List Char) : Bool :=
  isWordChar c || (c == '-' && rest.head?.any isWordChar)

/-- The longest run of word characters and joining hyphens, and what follows. -/
def splitWord : List Char → List Char × List Char
  | [] => ([], [])
  | c :: rest =>
      if continuesWord c rest then
        let (word, after) := splitWord rest
        (c :: word, after)
      else
        ([], c :: rest)

theorem splitWord_append (text : List Char) :
    (splitWord text).1 ++ (splitWord text).2 = text := by
  induction text with
  | nil => rfl
  | cons c rest induction =>
      by_cases continues : continuesWord c rest = true
      · simp [splitWord, continues, induction]
      · simp [splitWord, continues]

theorem splitWord_cons {c : Char} {rest : List Char}
    (continues : continuesWord c rest = true) :
    splitWord (c :: rest) = (c :: (splitWord rest).1, (splitWord rest).2) := by
  simp [splitWord, continues]

theorem isWordChar_of_isWordStart {c : Char} (start : isWordStart c = true) :
    isWordChar c = true := by
  simp only [isWordStart, Bool.or_eq_true] at start
  rcases start with letter | underscore
  · simp [isWordChar, Char.isAlphanum, letter]
  · simp [isWordChar, underscore]

/-- Equality of two words up to the case of their ASCII letters. -/
def sameLetters (left right : String) : Bool :=
  left.toList.map Char.toLower == right.toList.map Char.toLower

theorem sameLetters_self (word : String) : sameLetters word word = true := by
  simp [sameLetters]

def digitValue (c : Char) : Nat :=
  c.toNat - '0'.toNat

/-- The number that a run of digits denotes, most significant digit first. -/
def digitsValue (digits : List Char) : Nat :=
  digits.foldl (fun value c => 10 * value + digitValue c) 0

/-- The number that a text denotes if it consists of one or more ASCII digits,
of any length and with any leading zeros. -/
def decimal? (text : String) : Option Nat :=
  let digits := text.toList
  if !digits.isEmpty && digits.all Char.isDigit then
    some (digitsValue digits)
  else
    none

end Tapline.Text
