import Tapline.Text.Quoted
import Tapline.Text.Word
import Tapline.Token

/-!
# The spelling of words, numbers and names

What the characters of a word, a number, an argument name and a quoted value
look like, stated without the functions that read them.  Splitting takes exactly
the tail of a word off a text, provided what follows does not go on with it.
Reading a quoted value takes its characters with every quote in them doubled.
-/

namespace Tapline.Text

/-- Word characters, and single hyphens each with a word character behind it. -/
inductive WordTail : List Char → Prop where
  | nil : WordTail []
  | char {c : Char} {rest : List Char} :
      isWordChar c = true → WordTail rest → WordTail (c :: rest)
  | hyphen {c : Char} {rest : List Char} :
      isWordChar c = true → WordTail (c :: rest) → WordTail ('-' :: c :: rest)

/-- A letter or underscore, and the tail of a word. -/
inductive IsWord : List Char → Prop where
  | intro {c : Char} {rest : List Char} :
      isWordStart c = true → WordTail rest → IsWord (c :: rest)

inductive IsNumber : List Char → Prop where
  | intro {c : Char} {rest : List Char} :
      c.isDigit = true → (∀ d ∈ rest, d.isDigit = true) → IsNumber (c :: rest)

/-- A text that does not go on with a word in front of it. -/
def EndsWord (rest : List Char) : Prop :=
  ∀ c ∈ rest.head?, isWordChar c = false ∧ c ≠ '-'

theorem wordTail_splitWord (text : List Char) : WordTail (splitWord text).1 := by
  induction text with
  | nil => exact .nil
  | cons c rest induction =>
      by_cases continues : continuesWord c rest = true
      · rw [splitWord_cons continues]
        simp only [continuesWord, Bool.or_eq_true, Bool.and_eq_true,
          beq_iff_eq] at continues
        rcases continues with wordChar | ⟨rfl, joins⟩
        · exact .char wordChar induction
        · cases rest with
          | nil => simp at joins
          | cons d after =>
              have wordChar : isWordChar d = true := by simpa using joins
              have continuesLater : continuesWord d after = true := by
                simp [continuesWord, wordChar]
              rw [splitWord_cons continuesLater] at induction ⊢
              exact .hyphen wordChar induction
      · simpa [splitWord, continues] using .nil

theorem isWord_of_splitWord {c : Char} {rest : List Char}
    (start : isWordStart c = true) (whole : (splitWord rest).1 = rest) :
    IsWord (c :: rest) :=
  .intro start (whole ▸ wordTail_splitWord rest)

theorem splitWord_of_endsWord {rest : List Char} (ends : EndsWord rest) :
    splitWord rest = ([], rest) := by
  cases rest with
  | nil => rfl
  | cons c after =>
      obtain ⟨noWordChar, noHyphen⟩ := ends c rfl
      simp [splitWord, continuesWord, noWordChar, noHyphen]

theorem WordTail.splitWord_append {word rest : List Char} (tail : WordTail word)
    (ends : EndsWord rest) : splitWord (word ++ rest) = (word, rest) := by
  induction tail with
  | nil => exact splitWord_of_endsWord ends
  | @char c word wordChar tail induction =>
      have continues : continuesWord c (word ++ rest) = true := by
        simp [continuesWord, wordChar]
      rw [List.cons_append, splitWord_cons continues, induction]
  | @hyphen c word wordChar tail induction =>
      have continues : continuesWord '-' (c :: word ++ rest) = true := by
        simp [continuesWord, wordChar]
      rw [List.cons_append, splitWord_cons continues, induction]

/-- A tail is what splitting takes as a whole, so it can be recognised. -/
theorem wordTail_iff {word : List Char} :
    WordTail word ↔ (splitWord word).1 = word := by
  constructor
  · intro tail
    have ends : EndsWord [] := by simp [EndsWord]
    have split := tail.splitWord_append ends
    rw [List.append_nil] at split
    rw [split]
  · intro whole
    exact whole ▸ wordTail_splitWord word

instance (word : List Char) : Decidable (WordTail word) :=
  decidable_of_iff _ wordTail_iff.symm

instance (word : List Char) : Decidable (IsWord word) :=
  match word with
  | [] => .isFalse nofun
  | c :: rest =>
      decidable_of_iff (isWordStart c = true ∧ WordTail rest)
        ⟨fun ⟨start, tail⟩ => .intro start tail, fun | .intro start tail => ⟨start, tail⟩⟩

instance (number : List Char) : Decidable (IsNumber number) :=
  match number with
  | [] => .isFalse nofun
  | c :: rest =>
      decidable_of_iff (c.isDigit = true ∧ rest.all Char.isDigit = true)
        ⟨fun ⟨digit, digits⟩ => .intro digit (List.all_eq_true.mp digits),
          fun | .intro digit digits => ⟨digit, List.all_eq_true.mpr digits⟩⟩

theorem IsWord.wordTail {word : List Char} (isWord : IsWord word) :
    WordTail word := by
  cases isWord with
  | intro start tail => exact .char (isWordChar_of_isWordStart start) tail

theorem isDigit_of_isWordStart {c : Char} (start : isWordStart c = true) :
    c.isDigit = false := by
  simp only [isWordStart, Bool.or_eq_true, beq_iff_eq] at start
  rcases start with letter | rfl
  · rw [← Bool.not_eq_true]
    intro digit
    unfold Char.isAlpha Char.isUpper Char.isLower at letter
    unfold Char.isDigit at digit
    simp only [Bool.or_eq_true, Bool.and_eq_true, decide_eq_true_eq, ge_iff_le,
      UInt32.le_iff_toNat_le] at letter digit
    simp at letter digit
    omega
  · rfl

theorem isWordChar_of_isDigit {c : Char} (digit : c.isDigit = true) :
    isWordChar c = true := by
  simp [isWordChar, Char.isAlphanum, digit]

theorem isQuote_of_isWordChar {c : Char} (wordChar : isWordChar c = true) :
    isQuote c = false := by
  rw [← Bool.not_eq_true]
  intro quote
  simp only [isQuote, Bool.or_eq_true, beq_iff_eq] at quote
  rcases quote with rfl | rfl <;> exact absurd wordChar (by decide)

theorem isAsciiBlank_of_isWordChar {c : Char} (wordChar : isWordChar c = true) :
    isAsciiBlank c = false := by
  rw [← Bool.not_eq_true]
  intro blank
  simp only [isAsciiBlank, Bool.or_eq_true, beq_iff_eq] at blank
  rcases blank with (((rfl | rfl) | rfl) | rfl) | rfl <;>
    exact absurd wordChar (by decide)

theorem isDigit_of_endsWord {rest : List Char} (ends : EndsWord rest) :
    ∀ c ∈ rest.head?, c.isDigit = false := by
  intro c member
  rw [← Bool.not_eq_true]
  intro digit
  have wordChar := isWordChar_of_isDigit digit
  rw [(ends c member).1] at wordChar
  cases wordChar

/-- Every doubled quote made single, from left to right. -/
def undoubleQuote (quote : Char) : List Char → List Char
  | c :: d :: rest =>
      if c = quote ∧ d = quote then
        quote :: undoubleQuote quote rest
      else
        c :: undoubleQuote quote (d :: rest)
  | rest => rest

private theorem undoubleQuote_cons_of_ne {quote c : Char} (rest : List Char)
    (different : c ≠ quote) :
    undoubleQuote quote (c :: rest) = c :: undoubleQuote quote rest := by
  cases rest with
  | nil => rfl
  | cons d rest => simp [undoubleQuote, different]

theorem undoubleQuote_doubleQuote (quote : Char) (value : List Char) :
    undoubleQuote quote (doubleQuote quote value) = value := by
  induction value with
  | nil => rfl
  | cons c value induction =>
      by_cases same : c = quote
      · simp [doubleQuote, same, undoubleQuote, induction]
      · simp [doubleQuote, same, undoubleQuote_cons_of_ne, induction]

/-- What is read is the value with its quotes doubled, and the closing quote. -/
theorem raw_readQuoted (quote : Char) (text : List Char) :
    (readQuoted quote text).raw =
      doubleQuote quote (readQuoted quote text).value ++
        if (readQuoted quote text).closed then [quote] else [] := by
  fun_induction readQuoted quote text with
  | case1 => rfl
  | case2 after induction => simp [QuotedBody.push, doubleQuote, induction]
  | case3 => rfl
  | case4 => rfl
  | case5 c rest different induction =>
      simp [QuotedBody.push, doubleQuote, different, induction]

theorem rest_readQuoted_of_open {quote : Char} {text : List Char}
    (opened : (readQuoted quote text).closed = false) :
    (readQuoted quote text).rest = [] := by
  fun_induction readQuoted quote text with
  | case1 => rfl
  | case2 after induction => exact induction opened
  | case3 => cases opened
  | case4 => rfl
  | case5 c rest different induction => exact induction opened

end Tapline.Text

namespace Tapline.Token

/-- The payload of a token is spelled as its sort demands.  A text holds no end
of input, so that token has no spelling. -/
def Spelled : Token → Prop
  | .word text => Text.IsWord text.toList
  | .number digits => Text.IsNumber digits.toList
  | .flag name => Text.WordTail name.toList
  | .endOfInput => False
  | _ => True

/-- The token stands for the characters `raw` of a text that goes on with `rest`.
Between quotes, every quote of the value is doubled. -/
inductive SpelledBy : Token → List Char → List Char → Prop where
  | word {raw rest : List Char} :
      Text.IsWord raw → SpelledBy (.word (String.ofList raw)) raw rest
  | number {raw rest : List Char} :
      Text.IsNumber raw → SpelledBy (.number (String.ofList raw)) raw rest
  | flag {name rest : List Char} :
      Text.WordTail name →
        SpelledBy (.flag (String.ofList name)) ('-' :: '-' :: name) rest
  | bare {c : Char} {value rest : List Char} :
      Text.isQuote c = false →
        SpelledBy (.literal (String.ofList (c :: value))) (c :: value) rest
  | quoted {quote : Char} {value body rest : List Char} :
      Text.isQuote quote = true → Text.doubleQuote quote value = body →
        Text.undoubleQuote quote body = value →
          SpelledBy (.literal (String.ofList value)) (quote :: (body ++ [quote])) rest
  /-- Nothing follows a quote that is never closed. -/
  | unterminated {quote : Char} {value body : List Char} :
      Text.isQuote quote = true → Text.doubleQuote quote value = body →
        Text.undoubleQuote quote body = value →
          SpelledBy (.unterminated (String.ofList value)) (quote :: body) []
  | unknown (c : Char) {rest : List Char} : SpelledBy (.unknown c) [c] rest
  | pipe {rest : List Char} : SpelledBy .pipe ['|'] rest
  | colon {rest : List Char} : SpelledBy .colon [':'] rest
  | doubleColon {rest : List Char} : SpelledBy .doubleColon [':', ':'] rest
  | dot {rest : List Char} : SpelledBy .dot ['.'] rest
  | arrow {rest : List Char} : SpelledBy .arrow ['>'] rest
  | equals {rest : List Char} : SpelledBy .equals ['='] rest
  | semicolon {rest : List Char} : SpelledBy .semicolon [';'] rest

theorem SpelledBy.spelled {token : Token} {raw rest : List Char}
    (spelledBy : token.SpelledBy raw rest) : token.Spelled := by
  cases spelledBy with
  | word isWord => simpa [Spelled] using isWord
  | number isNumber => simpa [Spelled] using isNumber
  | flag tail => simpa [Spelled] using tail
  | _ => trivial

theorem SpelledBy.raw_ne_nil {token : Token} {raw rest : List Char}
    (spelledBy : token.SpelledBy raw rest) : raw ≠ [] := by
  cases spelledBy with
  | word isWord => cases isWord; exact List.cons_ne_nil _ _
  | number isNumber => cases isNumber; exact List.cons_ne_nil _ _
  | _ => exact List.cons_ne_nil _ _

end Tapline.Token
