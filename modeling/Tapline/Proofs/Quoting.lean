import Tapline.Proofs.Separation

/-!
# Values in their place

An argument that is written out is read back where it stands: its name, the equals sign,
and the value at the characters that were written for it, quoted or not.  What follows
behind a blank is read as if it stood alone.
-/

namespace Tapline

/-- The value as it is written, as a text. -/
def Text.writtenValue (value : String) : String :=
  String.ofList (writeValue value.toList)

namespace Lexeme

theorem wordTail_of_accepted {name : String}
    (accepted : (ofText ("--" ++ name)).head?.map token = some (.flag name)) :
    Text.WordTail name.toList := by
  rw [← List.head?_map, map_token_ofText] at accepted
  have member := List.mem_of_head? accepted
  rcases List.mem_append.mp member with inside | atEnd
  · exact (Piece.spelled_of_mem_tokens inside :)
  · cases List.mem_singleton.mp atEnd

/-- The three lexemes of a written argument, in front of what does not go on with its
value. -/
theorem scan_argument {name : String} (value : String) {rest : List Char} (offset : Nat)
    (spelled : Text.WordTail name.toList) (ends : Piece.EndsValue rest) :
    let sign := offset + (2 + name.utf8ByteSize)
    let behind := sign + 1 + (Text.writtenValue value).utf8ByteSize
    scan .ordinary offset
        ('-' :: '-' :: (name.toList ++ '=' :: (Text.writeValue value.toList ++ rest))) =
      ⟨.flag name, ⟨offset, sign⟩⟩ :: ⟨.equals, ⟨sign, sign + 1⟩⟩ ::
        ⟨.literal value, ⟨sign + 1, behind⟩⟩ :: scan .ordinary behind rest := by
  intro sign behind
  obtain ⟨c, after, written, readsValue⟩ := Piece.read_writeValue value.toList ends
  have nameLength : Text.byteLength ('-' :: '-' :: name.toList) = 2 + name.utf8ByteSize := by
    have hyphen : '-'.utf8Size = 1 := rfl
    rw [Text.byteLength_cons, Text.byteLength_cons, Text.byteLength_toList, hyphen]
    omega
  have valueLength : Text.byteLength (Text.writeValue value.toList) =
      (Text.writtenValue value).utf8ByteSize :=
    (Text.utf8ByteSize_ofList _).symm
  have readsSign : Piece.read .afterFlag '=' (c :: after) =
      (.spelling ['='] .equals, c :: after) := rfl
  rw [written, scan_spelling (Piece.read_argumentName spelled _), nameLength]
  change _ :: scan .afterFlag sign _ = _
  rw [scan_spelling readsSign]
  change _ :: _ :: scan .atValue (sign + 1) _ = _
  rw [scan_spelling readsValue, valueLength, String.ofList_toList]
  rfl

/-- Behind the name of an argument and its equals sign, a value that was written is read
as it was, over exactly the characters written for it.  Then come the lexemes of the rest,
moved to where it stands, up to the end of the input. -/
theorem ofText_writtenArgument {name rest : String} (value : String)
    (accepted : (ofText ("--" ++ name)).head?.map token = some (.flag name))
    (separated : Text.Separated rest.toList) :
    let text := "--" ++ name ++ "=" ++ Text.writtenValue value ++ rest
    let sign := 2 + name.utf8ByteSize
    let behind := sign + 1 + (Text.writtenValue value).utf8ByteSize
    ofText text =
        [⟨.flag name, ⟨0, sign⟩⟩, ⟨.equals, ⟨sign, sign + 1⟩⟩,
            ⟨.literal value, ⟨sign + 1, behind⟩⟩] ++
          (ofText rest).map (·.mapSpan (.shift behind)) ∧
      Text.slice? text.toList (sign + 1) behind =
        some (Text.writtenValue value).toList ∧
      (ofText text).getLast? =
        some ⟨.endOfInput, ⟨text.utf8ByteSize, text.utf8ByteSize⟩⟩ := by
  intro text sign behind
  have spelling : text.toList = '-' :: '-' ::
      (name.toList ++ '=' :: (Text.writeValue value.toList ++ rest.toList)) := by
    simp [text, Text.writtenValue]
  have ends : Piece.EndsValue rest.toList := by
    intro c first
    simpa using separated.endsValue c first
  have whole := scan_argument value 0 (wordTail_of_accepted accepted) ends
  have further := scan_shift .ordinary behind 0 rest.toList
  simp only [Nat.zero_add] at whole further
  refine ⟨?_, ?_, ?_⟩
  · rw [ofText, spelling]
    exact whole.trans (congrArg (_ :: _ :: _ :: ·) further)
  · let front := '-' :: '-' :: (name.toList ++ ['='])
    have parts : text.toList =
        front ++ ((Text.writtenValue value).toList ++ rest.toList) := by
      simp [spelling, front, Text.writtenValue]
    have frontLength : Text.byteLength front = sign + 1 := by
      have single : '-'.utf8Size = 1 ∧ '='.utf8Size = 1 := ⟨rfl, rfl⟩
      simp only [front, Text.byteLength_cons, Text.byteLength_append,
        Text.byteLength_toList, Text.byteLength_nil, single]
      omega
    have cut := Text.slice?_append front (Text.writtenValue value).toList rest.toList
    rwa [← parts, frontLength, Text.byteLength_toList] at cut
  · obtain ⟨lexemes, closed, -⟩ := ofText_tiled text
    rw [closed, List.getLast?_concat]

/-- A value that holds nothing but quotes and a blank outside ASCII, in front of another
argument. -/
theorem ofText_writtenArgument_quotes :
    (ofText ("--" ++ "e-1")).head?.map token = some (.flag "e-1") ∧
      Text.Separated "\t--x=1 'y".toList ∧
      ofText "--e-1='''\u00a0\"'''\t--x=1 'y" =
        [⟨.flag "e-1", ⟨0, 5⟩⟩, ⟨.equals, ⟨5, 6⟩⟩, ⟨.literal "'\u00a0\"'", ⟨6, 15⟩⟩,
          ⟨.flag "x", ⟨16, 19⟩⟩, ⟨.equals, ⟨19, 20⟩⟩, ⟨.literal "1", ⟨20, 21⟩⟩,
          ⟨.unterminated "y", ⟨22, 24⟩⟩, ⟨.endOfInput, ⟨24, 24⟩⟩] := by
  have accepted : (ofText ("--" ++ "e-1")).head?.map token = some (.flag "e-1") := by
    decide +kernel
  have separated : Text.Separated "\t--x=1 'y".toList := by
    rintro c ⟨⟩
    rfl
  refine ⟨accepted, separated, ?_⟩
  have read := (ofText_writtenArgument "'\u00a0\"'" accepted separated).1
  have behind : ofText "\t--x=1 'y" =
      [⟨.flag "x", ⟨1, 4⟩⟩, ⟨.equals, ⟨4, 5⟩⟩, ⟨.literal "1", ⟨5, 6⟩⟩,
        ⟨.unterminated "y", ⟨7, 9⟩⟩, ⟨.endOfInput, ⟨9, 9⟩⟩] := by
    decide +kernel
  rw [behind] at read
  exact read

end Lexeme

end Tapline
