import Tapline.Proofs.Json.Scalars

/-!
# Reading back documents

The printed text of a value is read as that value, provided that its numbers are
natural numbers.  Items and fields are read one after the other, each behind the
blanks of its line, and what follows a part never goes on with a number.
-/

namespace Tapline.Json

private theorem length_newLine (depth : Nat) : (newLine depth).length = 2 * depth + 1 := by
  simp [newLine]

private theorem skipBlanks_newLine (depth : Nat) (text : List Char) :
    skipBlanks (newLine depth ++ text) = skipBlanks text := by
  have blanks : ∀ c ∈ newLine depth, isJsonBlank c = true := by
    intro c member
    rcases List.mem_cons.mp member with rfl | space
    · rfl
    · rw [List.eq_of_mem_replicate space]
      rfl
  exact List.dropWhile_append_of_pos blanks

private theorem skipBlanks_cons {c : Char} (shown : isJsonBlank c = false) (text : List Char) :
    skipBlanks (c :: text) = c :: text := by
  simp [skipBlanks, shown]

theorem readValue_newLine (steps depth : Nat) (text : List Char) :
    readValue steps (newLine depth ++ text) = readValue steps text := by
  cases steps with
  | zero => rw [readValue, readValue]
  | succ steps => rw [readValue, readValue, skipBlanks_newLine]

theorem readValue_space (steps : Nat) (text : List Char) :
    readValue steps (' ' :: text) = readValue steps text := by
  have skipped : skipBlanks (' ' :: text) = skipBlanks text := rfl
  cases steps with
  | zero => rw [readValue, readValue]
  | succ steps => rw [readValue, readValue, skipped]

private theorem readItems_newLine (steps depth : Nat) (text : List Char) :
    readItems steps (newLine depth ++ text) = readItems steps text := by
  cases steps with
  | zero => rw [readItems, readItems]
  | succ steps => rw [readItems, readItems, readValue_newLine]

private theorem readFields_newLine (steps depth : Nat) (text : List Char) :
    readFields steps (newLine depth ++ text) = readFields steps text := by
  cases steps with
  | zero => rw [readFields, readFields]
  | succ steps => rw [readFields, readFields, skipBlanks_newLine]

private theorem endsNumber_cons {c : Char} (noDigit : c.isDigit = false)
    (apart : c ≠ '.' ∧ c ≠ 'e' ∧ c ≠ 'E') (text : List Char) :
    EndsNumber (c :: text) := by
  intro head member
  cases member
  exact ⟨noDigit, apart⟩

private theorem endsNumber_newLine (depth : Nat) (text : List Char) :
    EndsNumber (newLine depth ++ text) :=
  endsNumber_cons (by decide) (by decide) _

mutual

/-- All numbers in the value are natural numbers in decimal notation. -/
def HasNaturals : Json → Prop
  | .number literal => ∃ value : Nat, literal = toString value
  | .list items => ItemsHaveNaturals items
  | .record fields => FieldsHaveNaturals fields
  | _ => True

@[inherit_doc HasNaturals]
def ItemsHaveNaturals : List Json → Prop
  | [] => True
  | item :: items => item.HasNaturals ∧ ItemsHaveNaturals items

@[inherit_doc HasNaturals]
def FieldsHaveNaturals : List (Option String × Json) → Prop
  | [] => True
  | (_, value) :: fields => value.HasNaturals ∧ FieldsHaveNaturals fields

end

/-- The value is read from its text at every depth, in at most two steps for each
character. -/
def IsReadBack (value : Json) : Prop :=
  ∀ depth steps rest, EndsNumber rest → 2 * (write depth value).length ≤ steps + 2 →
    readValue (steps + 1) (write depth value ++ rest) = some (value, rest)

private theorem isJsonBlank_of_isDigit {c : Char} (digit : c.isDigit = true) :
    isJsonBlank c = false := by
  rw [← Bool.not_eq_true]
  intro blank
  simp only [isJsonBlank, Bool.or_eq_true, beq_iff_eq] at blank
  rcases blank with ((rfl | rfl) | rfl) | rfl <;> cases digit

theorem readValue_digit {c : Char} (digit : c.isDigit = true) (steps : Nat)
    (text : List Char) :
    readValue (steps + 1) (c :: text) =
      (readNumber (c :: text)).map fun read =>
        (.number (String.ofList read.1), read.2) := by
  rw [readValue, skipBlanks_cons (isJsonBlank_of_isDigit digit)]
  split
  case h_7 => cases readNumber (c :: text) <;> rfl
  all_goals
    next same =>
      cases same
      cases digit

private theorem write_number (depth value : Nat) :
    write depth (.number (toString value)) = Nat.toDigits 10 value := by
  rw [write, Nat.toString_eq_repr, Nat.toList_repr]

private theorem isReadBack_null : IsReadBack .null := by
  intro depth steps rest _ _
  simp [write, readValue, skipBlanks, isJsonBlank]

private theorem isReadBack_bool (choice : Bool) : IsReadBack (.bool choice) := by
  intro depth steps rest _ _
  cases choice <;> simp [write, readValue, skipBlanks, isJsonBlank]

private theorem isReadBack_number (value : Nat) : IsReadBack (.number (toString value)) := by
  intro depth steps rest ends _
  have read := readNumber_toDigits ends value
  obtain ⟨c, later, digits, digit⟩ := Text.exists_toDigits_cons value
  rw [write_number, digits, List.cons_append, readValue_digit digit, ← List.cons_append,
    ← digits, read, Nat.toString_eq_ofList_toDigits]
  rfl

private theorem isReadBack_text (content : Option String) : IsReadBack (.text content) := by
  intro depth steps rest _ _
  obtain ⟨body, written, read⟩ := exists_readText content rest
  rw [write, written, readValue, skipBlanks_cons (by decide)]
  simp [read]

/-- The text of a value begins where it stands, and not with a closing bracket. -/
theorem exists_write_cons {value : Json} (naturals : value.HasNaturals) (depth : Nat) :
    ∃ c text, write depth value = c :: text ∧ isJsonBlank c = false ∧ c ≠ ']' := by
  cases value with
  | null => exact ⟨'n', _, by rw [write]; rfl, by decide, by decide⟩
  | bool choice =>
      cases choice with
      | true => exact ⟨'t', _, by rw [write]; rfl, by decide, by decide⟩
      | false => exact ⟨'f', _, by rw [write]; rfl, by decide, by decide⟩
  | number literal =>
      obtain ⟨value, rfl⟩ := naturals
      obtain ⟨c, later, digits, digit⟩ := Text.exists_toDigits_cons value
      refine ⟨c, later, (write_number depth value).trans digits,
        isJsonBlank_of_isDigit digit, ?_⟩
      rintro rfl
      cases digit
  | text content =>
      obtain ⟨body, written, -⟩ := exists_readText content []
      rw [List.append_nil] at written
      exact ⟨'"', body, by rw [write, written], by decide, by decide⟩
  | list items =>
      cases items <;> exact ⟨'[', _, by rw [write], by decide, by decide⟩
  | record fields =>
      cases fields <;> exact ⟨'\x7b', _, by rw [write], by decide, by decide⟩

private theorem endsNumber_writeItems (depth outer : Nat) (items : List Json) (text : List Char) :
    EndsNumber (writeItems depth items ++ (newLine outer ++ text)) := by
  cases items with
  | nil =>
      rw [writeItems, List.nil_append]
      exact endsNumber_newLine outer text
  | cons item items =>
      rw [writeItems, List.cons_append]
      exact endsNumber_cons (by decide) (by decide) _

/-- Items that are read alone are read one after the other. -/
theorem readItems_write (depth outer : Nat) (rest : List Char) {item : Json}
    {items : List Json} (readBack : ∀ one ∈ item :: items, IsReadBack one) {steps : Nat}
    (bound : 2 * ((write depth item).length + (writeItems depth items).length) ≤
      steps + 2) :
    readItems (steps + 2) (write depth item ++
        (writeItems depth items ++ (newLine outer ++ ']' :: rest))) =
      some (item :: items, rest) := by
  induction items generalizing item steps with
  | nil =>
      have first := readBack item List.mem_cons_self depth steps
        (newLine outer ++ ']' :: rest) (endsNumber_newLine outer _) (by omega)
      rw [readItems, writeItems, List.nil_append, first]
      simp [skipBlanks_newLine, skipBlanks_cons (c := ']') (by decide)]
  | cons next items induction =>
      rw [writeItems, List.length_cons, List.length_append, List.length_append,
        length_newLine] at bound
      have first := readBack item List.mem_cons_self depth steps
        (writeItems depth (next :: items) ++ (newLine outer ++ ']' :: rest))
        (endsNumber_writeItems depth outer _ _) (by omega)
      obtain ⟨fewer, rfl⟩ : ∃ fewer, steps = fewer + 1 := ⟨steps - 1, by omega⟩
      have others : readItems (fewer + 2) (write depth next ++
          (writeItems depth items ++ (newLine outer ++ ']' :: rest))) =
            some (next :: items, rest) :=
        induction (fun one member => readBack one (List.mem_cons_of_mem _ member))
          (by omega)
      rw [readItems, first]
      simp only [writeItems, List.cons_append, List.append_assoc, Option.bind_eq_bind,
        Option.bind_some, skipBlanks_cons (c := ',') (by decide)]
      rw [readItems_newLine, others]
      rfl

section Fields

variable (depth steps : Nat) (name : Option String) {value : Json}
  (readBack : IsReadBack value)
  (bound : 2 * (write depth value).length ≤ steps + 2)

include readBack bound

theorem readFields_last (outer : Nat) (rest : List Char) :
    readFields (steps + 2) (writeText name ++ (':' :: ' ' ::
        (write depth value ++ (newLine outer ++ '\x7d' :: rest)))) =
      some ([(name, value)], rest) := by
  have first := readBack depth steps (newLine outer ++ '\x7d' :: rest)
    (endsNumber_newLine outer _) bound
  obtain ⟨body, written, read⟩ := exists_readText name
    (':' :: ' ' :: (write depth value ++ (newLine outer ++ '\x7d' :: rest)))
  rw [written, readFields, skipBlanks_cons (by decide)]
  simp [read, skipBlanks_cons (c := ':') (by decide), readValue_space, first,
    skipBlanks_newLine, skipBlanks_cons (c := '\x7d') (by decide)]

theorem readFields_more (text : List Char) :
    readFields (steps + 2)
        (writeText name ++ (':' :: ' ' :: (write depth value ++ ',' :: text))) =
      (readFields (steps + 1) text).map fun read => ((name, value) :: read.1, read.2) := by
  have first := readBack depth steps (',' :: text)
    (endsNumber_cons (by decide) (by decide) text) bound
  obtain ⟨body, written, read⟩ :=
    exists_readText name (':' :: ' ' :: (write depth value ++ ',' :: text))
  rw [written, readFields, skipBlanks_cons (by decide)]
  cases later : readFields (steps + 1) text <;>
    simp [read, skipBlanks_cons (c := ':') (by decide), readValue_space, first,
      skipBlanks_cons (c := ',') (by decide), later]

end Fields

/-- Fields whose values are read alone are read one after the other. -/
theorem readFields_write (depth outer : Nat) (rest : List Char) {name : Option String}
    {value : Json} {fields : List (Option String × Json)}
    (readBack : ∀ field ∈ (name, value) :: fields, IsReadBack field.2) {steps : Nat}
    (bound : 2 * ((write depth value).length + (writeFields depth fields).length) ≤
      steps + 2) :
    readFields (steps + 2) (writeText name ++ (':' :: ' ' :: (write depth value ++
        (writeFields depth fields ++ (newLine outer ++ '\x7d' :: rest))))) =
      some ((name, value) :: fields, rest) := by
  induction fields generalizing name value steps with
  | nil =>
      have valueReadBack : IsReadBack value := readBack (name, value) List.mem_cons_self
      exact readFields_last depth steps name valueReadBack (by omega) outer rest
  | cons next fields induction =>
      obtain ⟨nextName, nextValue⟩ := next
      simp only [writeFields, List.length_cons, List.length_append, List.length_nil,
        length_newLine] at bound
      obtain ⟨fewer, rfl⟩ : ∃ fewer, steps = fewer + 1 := ⟨steps - 1, by omega⟩
      have valueReadBack : IsReadBack value := readBack (name, value) List.mem_cons_self
      have others : readFields (fewer + 2) (writeText nextName ++ (':' :: ' ' ::
          (write depth nextValue ++ (writeFields depth fields ++
            (newLine outer ++ '\x7d' :: rest))))) =
          some ((nextName, nextValue) :: fields, rest) :=
        induction (fun one member => readBack one (List.mem_cons_of_mem _ member))
          (by omega)
      simp only [writeFields, List.cons_append, List.append_assoc, List.nil_append]
      rw [readFields_more depth (fewer + 1) name valueReadBack (by omega),
        readFields_newLine, others]
      rfl

theorem readValue_list (steps depth : Nat) {c : Char} (shown : isJsonBlank c = false)
    (noBracket : c ≠ ']') (text : List Char) :
    readValue (steps + 1) ('[' :: (newLine depth ++ c :: text)) =
      (readItems steps (c :: text)).map fun read => (.list read.1, read.2) := by
  rw [readValue, skipBlanks_cons (by decide)]
  cases read : readItems steps (c :: text) <;>
    simp [skipBlanks_newLine, skipBlanks_cons shown, noBracket, read]

theorem readValue_record (steps depth : Nat) (text : List Char) :
    readValue (steps + 1) ('\x7b' :: (newLine depth ++ '"' :: text)) =
      (readFields steps ('"' :: text)).map fun read => (.record read.1, read.2) := by
  rw [readValue, skipBlanks_cons (by decide)]
  cases read : readFields steps ('"' :: text) <;>
    simp [skipBlanks_newLine, skipBlanks_cons (c := '"') (by decide), read]

theorem isReadBack_list {items : List Json} (naturals : ItemsHaveNaturals items)
    (readBack : ∀ item ∈ items, IsReadBack item) : IsReadBack (.list items) := by
  intro depth steps rest _ bound
  cases items with
  | nil => simp [write, readValue, skipBlanks, isJsonBlank]
  | cons item items =>
      obtain ⟨c, text, written, shown, noBracket⟩ :=
        exists_write_cons naturals.1 (depth + 1)
      simp only [write, List.length_cons, List.length_append, List.length_nil,
        length_newLine] at bound
      obtain ⟨fewer, rfl⟩ : ∃ fewer, steps = fewer + 2 := ⟨steps - 2, by omega⟩
      have read : readItems (fewer + 2) (write (depth + 1) item ++
          (writeItems (depth + 1) items ++ (newLine depth ++ ']' :: rest))) =
            some (item :: items, rest) :=
        readItems_write (depth + 1) depth rest readBack (by omega)
      rw [written, List.cons_append] at read
      simp only [write, written, List.cons_append, List.append_assoc, List.nil_append]
      rw [readValue_list (fewer + 2) (depth + 1) shown noBracket, read]
      rfl

theorem isReadBack_record {fields : List (Option String × Json)}
    (readBack : ∀ field ∈ fields, IsReadBack field.2) : IsReadBack (.record fields) := by
  intro depth steps rest _ bound
  cases fields with
  | nil => simp [write, readValue, skipBlanks, isJsonBlank]
  | cons field fields =>
      obtain ⟨name, value⟩ := field
      simp only [write, List.length_cons, List.length_append, List.length_nil,
        length_newLine] at bound
      obtain ⟨fewer, rfl⟩ : ∃ fewer, steps = fewer + 2 := ⟨steps - 2, by omega⟩
      have read : readFields (fewer + 2) (writeText name ++ (':' :: ' ' ::
          (write (depth + 1) value ++ (writeFields (depth + 1) fields ++
            (newLine depth ++ '\x7d' :: rest))))) =
          some ((name, value) :: fields, rest) :=
        readFields_write (depth + 1) depth rest readBack (by omega)
      obtain ⟨body, written, -⟩ := exists_readText name (':' :: ' ' ::
        (write (depth + 1) value ++ (writeFields (depth + 1) fields ++
          (newLine depth ++ '\x7d' :: rest))))
      rw [written] at read
      simp only [write, List.cons_append, List.append_assoc, List.nil_append, written]
      rw [readValue_record, read]
      rfl

mutual

theorem isReadBack : ∀ value : Json, value.HasNaturals → IsReadBack value
  | .null, _ => isReadBack_null
  | .bool choice, _ => isReadBack_bool choice
  | .number _, ⟨value, same⟩ => same ▸ isReadBack_number value
  | .text content, _ => isReadBack_text content
  | .list items, naturals =>
      isReadBack_list naturals (isReadBack_of_mem_items items naturals)
  | .record fields, naturals =>
      isReadBack_record (isReadBack_of_mem_fields fields naturals)

private theorem isReadBack_of_mem_items : ∀ items : List Json, ItemsHaveNaturals items →
    ∀ item ∈ items, IsReadBack item
  | [], _, _, member => nomatch member
  | first :: items, naturals, item, member =>
      (List.mem_cons.mp member).elim
        (fun same => same ▸ isReadBack first naturals.1)
        (isReadBack_of_mem_items items naturals.2 item)

private theorem isReadBack_of_mem_fields : ∀ fields : List (Option String × Json),
    FieldsHaveNaturals fields → ∀ field ∈ fields, IsReadBack field.2
  | [], _, _, member => nomatch member
  | (_, value) :: fields, naturals, field, member =>
      (List.mem_cons.mp member).elim
        (fun same => same ▸ isReadBack value naturals.1)
        (isReadBack_of_mem_fields fields naturals.2 field)

end

/-- A printed document is read as the value that was printed. -/
theorem read?_pretty {value : Json} (naturals : value.HasNaturals) :
    read? value.pretty = some value := by
  have ends : EndsNumber [] := by simp [EndsNumber]
  have read := isReadBack value naturals 0 (2 * (write 0 value).length + 1) [] ends
    (by omega)
  rw [List.append_nil] at read
  simp [read?, pretty, read, skipBlanks]

end Tapline.Json
