import Tapline.Json.Printer
import Tapline.Json.Reader
import Tapline.Text.Word

/-!
# Reading back texts and numbers

Every character of a text is written as itself or as an escape, and either way it
is read as one unit, that of the character.  No character is half of a surrogate
pair, so the units spell the text again.

A natural number is written in decimal digits without superfluous zeros, so all of
them are read, provided that what follows does not go on with the number.
-/

namespace Tapline

namespace Text

private theorem isDigit_of_mem_toDigits {value : Nat} :
    ∀ c ∈ Nat.toDigits 10 value, c.isDigit = true := fun _ member =>
  Nat.isDigit_of_mem_toDigits (by decide) (by decide) member

theorem decimal?_toString (value : Nat) : decimal? (toString value) = some value := by
  have denotes : digitsValue (Nat.toDigits 10 value) = value := by
    have read := Nat.ofDigitChars_ten_toDigits (n := value)
    rwa [Nat.ofDigitChars_eq_foldl] at read
  simpa [decimal?, Nat.toString_eq_repr, Nat.toList_repr, denotes, Nat.toDigits_ne_nil]
    using isDigit_of_mem_toDigits

theorem exists_toDigits_cons (value : Nat) :
    ∃ c later, Nat.toDigits 10 value = c :: later ∧ c.isDigit = true := by
  obtain ⟨c, later, digits⟩ := List.exists_cons_of_ne_nil
    (Nat.toDigits_ne_nil (n := value) (b := 10))
  exact ⟨c, later, digits, isDigit_of_mem_toDigits c (digits ▸ List.mem_cons_self)⟩

private theorem head?_toDigits_ne {value : Nat} (positive : 0 < value) :
    (Nat.toDigits 10 value).head? ≠ some '0' := by
  induction value using Nat.strongRecOn with
  | _ value induction =>
      rw [Nat.toDigits_eq_if (by decide)]
      split
      next small =>
        have apart : ∀ digit < 10, 0 < digit → digit.digitChar ≠ '0' := by decide
        simpa using apart value small positive
      next large =>
        have head := induction (value / 10) (by omega) (by omega)
        obtain ⟨c, later, digits, -⟩ := exists_toDigits_cons (value / 10)
        simpa [digits] using head

end Text

namespace Json

private theorem hexValue?_hexDigit (value : Nat) :
    hexValue? (hexDigit value) = some (value % 16) := by
  have small : ∀ digit < 16,
      hexValue? ((Nat.toDigits 16 digit).headD '0') = some digit := by decide
  exact small (value % 16) (Nat.mod_lt value (by decide))

section Units

variable {c : Char} (text : List Char)

private theorem readUnits_short {escaped : Char} (short : shortEscape? escaped = some c.toNat) :
    readUnits ('\\' :: escaped :: text) =
      (readUnits text).map fun read => (c.toNat :: read.1, read.2) := by
  have noUnit : escaped ≠ 'u' := by
    rintro rfl
    cases short
  rw [readUnits.eq_def]
  cases read : readUnits text <;> simp [short, noUnit, read]

private theorem readUnits_control (control : c.toNat < 0x20) :
    readUnits ('\\' :: 'u' :: '0' :: '0' :: hexDigit (c.toNat / 16) ::
        hexDigit c.toNat :: text) =
      (readUnits text).map fun read => (c.toNat :: read.1, read.2) := by
  have zero : hexValue? '0' = some 0 := by decide
  have value : c.toNat / 16 % 16 * 16 + c.toNat % 16 = c.toNat := by omega
  rw [readUnits.eq_def]
  cases read : readUnits text <;> simp [hexUnit?, hexValue?_hexDigit, zero, value, read]

private theorem readUnits_plain (noQuote : c ≠ '"') (noBackslash : c ≠ '\\')
    (noControl : ¬c.toNat < 0x20) :
    readUnits (c :: text) =
      (readUnits text).map fun read => (c.toNat :: read.1, read.2) := by
  rw [readUnits.eq_def]
  cases read : readUnits text <;> simp [noBackslash, noControl, read]

/-- Whichever way a character is written, it is read as its own unit. -/
theorem readUnits_writeChar (c : Char) (text : List Char) :
    readUnits (writeChar c ++ text) =
      (readUnits text).map fun read => (c.toNat :: read.1, read.2) := by
  unfold writeChar
  split
  next same => subst same; exact readUnits_short text rfl
  split
  next same => subst same; exact readUnits_short text rfl
  split
  next same => subst same; exact readUnits_short text rfl
  split
  next same => subst same; exact readUnits_short text rfl
  split
  next same => subst same; exact readUnits_short text rfl
  split
  next same => subst same; exact readUnits_short text rfl
  split
  next same => subst same; exact readUnits_short text rfl
  split
  next control => exact readUnits_control text control
  next noQuote noBackslash _ _ _ _ _ noControl =>
    exact readUnits_plain text noQuote noBackslash noControl

end Units

theorem readUnits_writeChars (content rest : List Char) :
    readUnits (content.flatMap writeChar ++ '"' :: rest) =
      some (content.map Char.toNat, rest) := by
  induction content with
  | nil => rw [List.flatMap_nil, List.nil_append, readUnits, List.map_nil]
  | cons c content induction =>
      rw [List.flatMap_cons, List.append_assoc, readUnits_writeChar, induction]
      rfl

/-- Characters are no surrogates, so their units spell them. -/
theorem charsOfUnits?_map_toNat (content : List Char) :
    charsOfUnits? (content.map Char.toNat) = some content := by
  induction content with
  | nil => rfl
  | cons c content induction =>
      have valid : c.toNat < 0xD800 ∨ 0xDFFF < c.toNat ∧ c.toNat < 0x110000 := c.valid
      have noHigh : isHighSurrogate c.toNat = false := by
        rw [isHighSurrogate, Bool.and_eq_false_iff, decide_eq_false_iff_not,
          decide_eq_false_iff_not]
        omega
      have noLow : isLowSurrogate c.toNat = false := by
        rw [isLowSurrogate, Bool.and_eq_false_iff, decide_eq_false_iff_not,
          decide_eq_false_iff_not]
        omega
      rw [List.map_cons, charsOfUnits?.eq_def]
      simp [noHigh, noLow, induction]

theorem readText_writeChars (text : String) (rest : List Char) :
    readText (text.toList.flatMap writeChar ++ '"' :: rest) = some (some text, rest) := by
  unfold readText
  rw [readUnits_writeChars]
  simp [charsOfUnits?_map_toNat]

/-- The escape of a lone surrogate is read as a text without content. -/
theorem readText_surrogate (rest : List Char) :
    readText ('\\' :: 'u' :: 'd' :: '8' :: '0' :: '0' :: '"' :: rest) =
      some (none, rest) := by
  have unit : hexUnit? 'd' '8' '0' '0' = some 0xD800 := by decide
  simp [readText, readUnits, unit, charsOfUnits?, isHighSurrogate]

/-- A written text begins with a quote, and what is behind it is read as the text. -/
theorem exists_readText (content : Option String) (rest : List Char) :
    ∃ body, writeText content ++ rest = '"' :: body ∧
      readText body = some (content, rest) := by
  cases content with
  | none =>
      have written : writeText none = ['"', '\\', 'u', 'd', '8', '0', '0', '"'] := by
        decide
      exact ⟨_, by rw [written]; rfl, readText_surrogate rest⟩
  | some text =>
      have written : writeText (some text) =
          '"' :: (text.toList.flatMap writeChar ++ ['"']) := rfl
      exact ⟨_, by rw [written]; simp, readText_writeChars text rest⟩

/-- A text that does not go on with a number in front of it. -/
def EndsNumber (rest : List Char) : Prop :=
  ∀ c ∈ rest.head?, c.isDigit = false ∧ c ≠ '.' ∧ c ≠ 'e' ∧ c ≠ 'E'

section Numbers

variable {rest : List Char} (ends : EndsNumber rest)

include ends

private theorem readFraction_of_endsNumber : readFraction rest = some ([], rest) := by
  cases rest with
  | nil => rfl
  | cons c rest =>
      obtain ⟨-, noPoint, -, -⟩ := ends c rfl
      simp [readFraction, noPoint]

private theorem readExponent_of_endsNumber : readExponent rest = some ([], rest) := by
  cases rest with
  | nil => rfl
  | cons c rest =>
      obtain ⟨-, -, noSmall, noLarge⟩ := ends c rfl
      simp [readExponent, noSmall, noLarge]

private theorem readDigits_append {digits : List Char} (nonempty : digits ≠ [])
    (allDigits : ∀ c ∈ digits, c.isDigit = true) :
    readDigits (digits ++ rest) = some (digits, rest) := by
  have stops : rest.takeWhile Char.isDigit = [] ∧
      rest.dropWhile Char.isDigit = rest := by
    cases rest with
    | nil => exact ⟨rfl, rfl⟩
    | cons c rest =>
        obtain ⟨noDigit, -⟩ := ends c rfl
        simp [noDigit]
  simp [readDigits, List.takeWhile_append_of_pos allDigits,
    List.dropWhile_append_of_pos allDigits, stops, nonempty]

theorem readWhole_toDigits (value : Nat) :
    readWhole (Nat.toDigits 10 value ++ rest) = some (Nat.toDigits 10 value, rest) := by
  by_cases zero : value = 0
  · subst zero
    rfl
  · have head := Text.head?_toDigits_ne (Nat.pos_of_ne_zero zero)
    have read := readDigits_append ends (Nat.toDigits_ne_nil (n := value) (b := 10))
      Text.isDigit_of_mem_toDigits
    obtain ⟨c, later, digits, -⟩ := Text.exists_toDigits_cons value
    rw [digits] at head read ⊢
    have noZero : c ≠ '0' := by simpa using head
    simpa [readWhole, noZero] using read

theorem readNumber_toDigits (value : Nat) :
    readNumber (Nat.toDigits 10 value ++ rest) =
      some (Nat.toDigits 10 value, rest) := by
  have unsigned : readSign ['-'] (Nat.toDigits 10 value ++ rest) =
      ([], Nat.toDigits 10 value ++ rest) := by
    obtain ⟨c, later, digits, digit⟩ := Text.exists_toDigits_cons value
    have noSign : c ≠ '-' := by
      rintro rfl
      cases digit
    simp [digits, readSign, noSign]
  simp [readNumber, unsigned, readWhole_toDigits ends value,
    readFraction_of_endsNumber ends, readExponent_of_endsNumber ends]

end Numbers

end Json

end Tapline
