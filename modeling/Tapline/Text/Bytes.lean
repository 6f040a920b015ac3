/-!
# Byte offsets into a text

A text is a list of characters, but positions in it count bytes of its UTF-8
encoding.  This file measures a text in bytes and cuts it at a byte offset;
a cut inside a character, or past the end, is refused.
-/

namespace Tapline.Text

/-- The number of bytes that the characters take in UTF-8. -/
def byteLength : List Char → Nat
  | [] => 0
  | c :: rest => c.utf8Size + byteLength rest

/-- The first `offset` bytes and what follows them, if a character ends there. -/
def splitBytes? : Nat → List Char → Option (List Char × List Char)
  | 0, text => some ([], text)
  | _ + 1, [] => none
  | offset + 1, c :: rest =>
      if c.utf8Size ≤ offset + 1 then
        match splitBytes? (offset + 1 - c.utf8Size) rest with
        | some (before, after) => some (c :: before, after)
        | none => none
      else
        none

/-- The characters between two byte offsets, if both lie between characters
and are in order. -/
def slice? (text : List Char) (start stop : Nat) : Option (List Char) :=
  if start ≤ stop then do
    let (_, rest) ← splitBytes? start text
    let (inside, _) ← splitBytes? (stop - start) rest
    some inside
  else
    none

@[simp] theorem byteLength_nil : byteLength [] = 0 := rfl

@[simp] theorem byteLength_cons (c : Char) (rest : List Char) :
    byteLength (c :: rest) = c.utf8Size + byteLength rest := rfl

@[simp] theorem byteLength_append (left right : List Char) :
    byteLength (left ++ right) = byteLength left + byteLength right := by
  induction left with
  | nil => simp
  | cons c left induction => simp [induction, Nat.add_assoc]

theorem utf8ByteSize_ofList (text : List Char) :
    (String.ofList text).utf8ByteSize = byteLength text := by
  induction text with
  | nil => rfl
  | cons c rest induction =>
      rw [String.ofList_cons, String.utf8ByteSize_append, induction]
      simp

theorem byteLength_toList (text : String) :
    byteLength text.toList = text.utf8ByteSize := by
  rw [← utf8ByteSize_ofList, String.ofList_toList]

theorem byteLength_pos {text : List Char} (nonempty : text ≠ []) :
    0 < byteLength text := by
  cases text with
  | nil => exact absurd rfl nonempty
  | cons c rest =>
      have := c.utf8Size_pos
      simp only [byteLength_cons]
      omega

/-- Cutting where one part ends gives back the two parts. -/
theorem splitBytes?_append (left right : List Char) :
    splitBytes? (byteLength left) (left ++ right) = some (left, right) := by
  induction left with
  | nil => simp [splitBytes?]
  | cons c left induction =>
      have positive := c.utf8Size_pos
      obtain ⟨offset, equality⟩ : ∃ offset,
          c.utf8Size + byteLength left = offset + 1 :=
        ⟨c.utf8Size + byteLength left - 1, by omega⟩
      simp only [byteLength_cons, List.cons_append, equality, splitBytes?]
      rw [if_pos (by omega),
        show offset + 1 - c.utf8Size = byteLength left by omega, induction]

/-- A cut loses nothing, and its first part has the length asked for. -/
theorem append_of_splitBytes? {offset : Nat} {text before after : List Char}
    (found : splitBytes? offset text = some (before, after)) :
    before ++ after = text ∧ byteLength before = offset := by
  fun_induction splitBytes? offset text generalizing before after with
  | case1 text =>
      simp only [Option.some.injEq, Prod.mk.injEq] at found
      obtain ⟨rfl, rfl⟩ := found
      simp
  | case2 => simp at found
  | case3 offset c rest fits before' after' inner induction =>
      simp only [Option.some.injEq, Prod.mk.injEq] at found
      obtain ⟨rfl, rfl⟩ := found
      obtain ⟨whole, size⟩ := induction inner
      exact ⟨by simp [whole], by simp only [byteLength_cons]; omega⟩
  | case4 => simp at found
  | case5 => simp at found

theorem slice?_append (before inside after : List Char) :
    slice? (before ++ (inside ++ after)) (byteLength before)
      (byteLength before + byteLength inside) = some inside := by
  simp [slice?, splitBytes?_append]

theorem append_of_slice? {text inside : List Char} {start stop : Nat}
    (found : slice? text start stop = some inside) :
    ∃ before after, text = before ++ (inside ++ after) ∧
      byteLength before = start ∧ start + byteLength inside = stop := by
  unfold slice? at found
  split at found
  · rename_i forwards
    simp only [Option.bind_eq_bind, Option.bind_eq_some_iff, Prod.exists,
      Option.some.injEq] at found
    obtain ⟨before, rest, first, inner, after, second, rfl⟩ := found
    obtain ⟨rfl, start⟩ := append_of_splitBytes? first
    obtain ⟨rfl, width⟩ := append_of_splitBytes? second
    exact ⟨before, after, rfl, start, by omega⟩
  · simp at found

/-- What is behind the beginning of a slice is a slice itself. -/
theorem slice?_behind {text front back : List Char} {start stop : Nat}
    (found : slice? text start stop = some (front ++ back)) :
    slice? text (start + byteLength front) stop = some back := by
  obtain ⟨before, after, rfl, rfl, rfl⟩ := append_of_slice? found
  have behind := slice?_append (before ++ front) back after
  simpa only [byteLength_append, List.append_assoc, Nat.add_assoc] using behind

theorem slice?_inside {text front inside back : List Char} {start stop : Nat}
    (found : slice? text start stop = some (front ++ (inside ++ back))) :
    slice? text (start + byteLength front)
      (start + byteLength front + byteLength inside) = some inside := by
  obtain ⟨before, after, rfl, rfl, -⟩ := append_of_slice? found
  have part := slice?_append (before ++ front) inside (back ++ after)
  simpa only [byteLength_append, List.append_assoc] using part

end Tapline.Text
