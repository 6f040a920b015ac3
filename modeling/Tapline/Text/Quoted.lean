/-!
# Blanks and quoted values

Lexemes are separated by the five ASCII blanks.  A value that cannot stand bare is
written between quotes, and a quote inside it is written twice.  Reading accepts
either kind of quote; writing always chooses the single one, and quotes a value for any
character with the Unicode property White_Space, which is a larger set of blanks.
-/

namespace Tapline.Text

/-- The characters that separate lexemes: space, tab, line feed, form feed and
carriage return.  The vertical tab is not one of them. -/
def isAsciiBlank (c : Char) : Bool :=
  c == ' ' || c == '\t' || c == '\n' || c == '\x0c' || c == '\r'

def isBlank (c : Char) : Bool :=
  let code := c.toNat
  (0x9 ≤ code && code ≤ 0xD) || code == 0x20 || code == 0x85 || code == 0xA0 ||
    code == 0x1680 || (0x2000 ≤ code && code ≤ 0x200A) || code == 0x2028 ||
    code == 0x2029 || code == 0x202F || code == 0x205F || code == 0x3000

/-- Lexemes are separated by single bytes. -/
theorem utf8Size_of_isAsciiBlank {c : Char} (blank : isAsciiBlank c = true) :
    c.utf8Size = 1 := by
  simp only [isAsciiBlank, Bool.or_eq_true, beq_iff_eq] at blank
  rcases blank with (((rfl | rfl) | rfl) | rfl) | rfl <;> decide

theorem isBlank_of_isAsciiBlank {c : Char} (blank : isAsciiBlank c = true) :
    isBlank c = true := by
  simp only [isAsciiBlank, Bool.or_eq_true, beq_iff_eq] at blank
  rcases blank with (((rfl | rfl) | rfl) | rfl) | rfl <;> decide

/-- A quote opens and closes a quoted value. -/
def isQuote (c : Char) : Bool :=
  c == '\x27' || c == '"'

theorem utf8Size_of_isQuote {c : Char} (quote : isQuote c = true) :
    c.utf8Size = 1 := by
  simp only [isQuote, Bool.or_eq_true, beq_iff_eq] at quote
  rcases quote with rfl | rfl <;> decide

/-- The characters that end a bare value. -/
def endsValue (c : Char) : Bool :=
  isAsciiBlank c || c == '|' || c == ';'

/-- Writes every occurrence of the quote twice. -/
def doubleQuote (quote : Char) : List Char → List Char
  | [] => []
  | c :: rest =>
      if c = quote then
        quote :: quote :: doubleQuote quote rest
      else
        c :: doubleQuote quote rest

theorem doubleQuote_append (quote : Char) (left right : List Char) :
    doubleQuote quote (left ++ right) =
      doubleQuote quote left ++ doubleQuote quote right := by
  induction left with
  | nil => rfl
  | cons c left induction =>
      simp only [List.cons_append, doubleQuote, induction]
      split <;> rfl

theorem doubleQuote_of_not_mem {quote : Char} {text : List Char}
    (plain : quote ∉ text) : doubleQuote quote text = text := by
  induction text with
  | nil => rfl
  | cons c text induction =>
      obtain ⟨different, later⟩ := List.ne_and_not_mem_of_not_mem_cons plain
      rw [doubleQuote, if_neg different.symm, induction later]

/-- Whether a value can be written without quotes: it is not empty, does not
begin with a quote, and holds no blank, pipe or semicolon. -/
def standsBare (value : List Char) : Bool :=
  !value.isEmpty && !value.head?.any isQuote &&
    !value.any fun c => isBlank c || c == '|' || c == ';'

/-- A value as it is written after `--name=`. -/
def writeValue (value : List Char) : List Char :=
  if standsBare value then
    value
  else
    '\x27' :: (doubleQuote '\x27' value ++ ['\x27'])

/-- What follows an opening quote: the value, the characters that spell it
together with its closing quote, whether there is one, and the rest. -/
structure QuotedBody where
  value : List Char
  raw : List Char
  closed : Bool
  rest : List Char
deriving DecidableEq

namespace QuotedBody

/-- The body with one more value character in front, spelled by `raw`. -/
def push (c : Char) (raw : List Char) (body : QuotedBody) : QuotedBody :=
  { body with value := c :: body.value, raw := raw ++ body.raw }

end QuotedBody

/-- Reads up to the closing quote, or to the end when there is none. -/
def readQuoted (quote : Char) : List Char → QuotedBody
  | [] => ⟨[], [], false, []⟩
  | c :: rest =>
      if c = quote then
        match rest with
        | d :: after =>
            if d = quote then
              (readQuoted quote after).push quote [quote, quote]
            else
              ⟨[], [quote], true, d :: after⟩
        | [] => ⟨[], [quote], true, []⟩
      else
        (readQuoted quote rest).push c [c]

theorem readQuoted_append (quote : Char) (text : List Char) :
    (readQuoted quote text).raw ++ (readQuoted quote text).rest = text := by
  fun_induction readQuoted quote text with
  | case1 => rfl
  | case2 after induction => simp [QuotedBody.push, induction]
  | case3 => rfl
  | case4 => rfl
  | case5 c rest different induction => simp [QuotedBody.push, induction]

theorem readQuoted_cons_of_ne {quote c : Char} (rest : List Char)
    (different : c ≠ quote) :
    readQuoted quote (c :: rest) = (readQuoted quote rest).push c [c] := by
  rw [readQuoted.eq_def]
  simp [different]

/-- Reading undoes doubling, provided no further quote follows the closing one. -/
theorem readQuoted_doubleQuote (quote : Char) (value rest : List Char)
    (ends : rest.head? ≠ some quote) :
    readQuoted quote (doubleQuote quote value ++ quote :: rest) =
      ⟨value, doubleQuote quote value ++ [quote], true, rest⟩ := by
  induction value with
  | nil =>
      cases rest with
      | nil => simp [doubleQuote, readQuoted]
      | cons d after =>
          have different : d ≠ quote := by simpa using ends
          simp [doubleQuote, readQuoted, different]
  | cons c value induction =>
      by_cases same : c = quote
      · subst same
        simp [doubleQuote, readQuoted, induction, QuotedBody.push]
      · simp [doubleQuote, same, readQuoted_cons_of_ne, induction,
          QuotedBody.push]

end Tapline.Text
