import Tapline.Proofs.RoundTrip

/-!
# The names in a definition

The names in a definition are words, and the parts of a channel name are words or
numbers.  The names of arguments are an exception.  A flag is read without a look
at its first character, so after the two hyphens there may stand anything a word
can go on with.  An argument name may begin with a digit or with a hyphen, and it
is a word exactly when it begins with neither.
-/

namespace Tapline

namespace Text

/-- What a word can go on with is a word itself unless it begins with a digit or a
hyphen. -/
theorem WordTail.isWord_iff {c : Char} {rest : List Char}
    (tail : WordTail (c :: rest)) :
    IsWord (c :: rest) ↔ c.isDigit = false ∧ c ≠ '-' := by
  constructor
  · intro isWord
    cases isWord with
    | intro start _ =>
        refine ⟨isDigit_of_isWordStart start, ?_⟩
        intro hyphen
        subst hyphen
        exact absurd start (by decide)
  · intro plain
    obtain ⟨noDigit, noHyphen⟩ := plain
    cases tail with
    | char wordChar tail =>
        have start : isWordStart c = true := by
          simpa [isWordChar, isWordStart, Char.isAlphanum, noDigit] using wordChar
        exact .intro start tail
    | hyphen => exact (noHyphen rfl).elim

end Text

namespace Pipeline

/-- How the names in a pipeline are spelled. -/
structure Spelled (pipeline : Pipeline) : Prop where
  name : ∀ name ∈ pipeline.name, Text.IsWord name.toList
  module : ∀ module ∈ pipeline.modules, Text.IsWord module.name.toList
  label : ∀ module ∈ pipeline.modules, ∀ label ∈ module.label,
    Text.IsWord label.toList
  /-- The name of an argument is made like the tail of a word.  Its first character
  decides whether it is a word. -/
  argument : ∀ module ∈ pipeline.modules, ∀ argument ∈ module.arguments,
    ∃ c rest, argument.name.toList = c :: rest ∧ Text.WordTail (c :: rest) ∧
      (Text.IsWord (c :: rest) ↔ c.isDigit = false ∧ c ≠ '-')
  segment : ∀ channel ∈ pipeline.channels, ∀ segment ∈ channel.segments,
    Text.IsSegment segment
  index : ∀ channel ∈ pipeline.channels, ∀ element ∈ channel.index,
    Text.IsSegment element

theorem channels_isSegment {kind : Kind} {text : String} {found : Pipeline}
    (read : parse kind text = .ok found) :
    ∀ channel ∈ found.channels,
      (∀ segment ∈ channel.segments, Text.IsSegment segment) ∧
        ∀ element ∈ channel.index, Text.IsSegment element := by
  obtain ⟨sources, sinks⟩ := Grammar.ensures_channel_segments.channels
    (definition_of_parse read) fun token member => Piece.spelled_of_mem_tokens member
  intro channel member
  rcases List.mem_append.mp member with source | sink
  · rw [Option.mem_toList] at source
    exact sources channel.form (Option.mem_map_of_mem Channel.form source)
  · rw [Option.mem_toList] at sink
    exact sinks channel.form (Option.mem_map_of_mem Channel.form sink)

theorem exists_parse_argument (kind : Kind) {name : String}
    (tail : Text.WordTail name.toList) (nonempty : name ≠ "") :
    ∃ text found, parse kind text = .ok found ∧
      ∃ module ∈ found.modules, ∃ argument ∈ module.arguments, argument.name = name := by
  let built : Pipeline :=
    ⟨none, none, [⟨"x", none, [⟨name, "", .origin⟩], .origin⟩], none, .origin⟩
  have isWord : Text.IsWord "x".toList := by decide
  have wellFormed : built.meaning.WellFormed := by
    apply Meaning.wellFormed_single
    · simp
    · constructor
      · exact isWord
      · simp [Module.meaning]
      · simp [Module.meaning]
      · simpa [Module.meaning, Argument.entry] using tail
      · simpa [Module.meaning, Argument.entry] using nonempty
      · simp [Module.meaning]
  obtain ⟨again, read, form⟩ := parse_text wellFormed
  have same : again.meaning = built.meaning := by
    rw [← meaning_form again, form, Meaning.meaning_form wellFormed]
  refine ⟨built.text, again, ?_, ?_⟩
  · cases kind with
    | stream => exact read
    | job =>
        refine parse_job_eq_ok.mpr ⟨read, ?_⟩
        rw [same]
        exact ⟨rfl, rfl, Nat.le_refl 1⟩
  · have modules : again.modules.map Module.meaning = [⟨"x", none, [(name, "")]⟩] :=
      congrArg Meaning.modules same
    obtain ⟨module, others, split, first, -⟩ := List.map_eq_cons_iff.mp modules
    have entries : module.arguments.map Argument.entry = [(name, "")] :=
      congrArg Module.Meaning.arguments first
    obtain ⟨argument, rest, arguments, entry, -⟩ := List.map_eq_cons_iff.mp entries
    exact ⟨module, by simp [split], argument, by simp [arguments],
      congrArg Prod.fst entry⟩

/-- Names are words, and the parts of channel names words or numbers.  Argument
names are the tails of words, and every one of these is the name of some
argument. -/
theorem spelled_of_parse (kind : Kind) :
    (∀ text found, parse kind text = .ok found → found.Spelled) ∧
      ∀ name : String, (∃ text found, parse kind text = .ok found ∧
          ∃ module ∈ found.modules, ∃ argument ∈ module.arguments,
            argument.name = name) ↔
        Text.WordTail name.toList ∧ name ≠ "" := by
  have arguments {text : String} {found : Pipeline}
      (read : parse kind text = .ok found) :
      ∀ module ∈ found.modules, ∀ argument ∈ module.arguments,
        Text.WordTail argument.name.toList ∧ argument.name ≠ "" := by
    intro module inside argument member
    have wellFormed := (wellFormed_of_parse read).modules_wellFormed module.meaning
      (List.mem_map_of_mem inside)
    have entry : argument.entry ∈ module.meaning.arguments := List.mem_map_of_mem member
    exact ⟨wellFormed.argument_spelled _ entry, wellFormed.argument_ne_empty _ entry⟩
  refine ⟨?_, ?_⟩
  · intro text found read
    have wellFormed := wellFormed_of_parse read
    have modules : ∀ module ∈ found.modules, module.meaning.WellFormed :=
      fun module inside =>
        wellFormed.modules_wellFormed module.meaning (List.mem_map_of_mem inside)
    constructor
    · exact wellFormed.name_isWord
    · intro module inside
      exact (modules module inside).name_isWord
    · intro module inside
      exact (modules module inside).label_isWord
    · intro module inside argument member
      obtain ⟨tail, nonempty⟩ := arguments read module inside argument member
      cases spelling : argument.name.toList with
      | nil => exact (nonempty (String.toList_eq_nil_iff.mp spelling)).elim
      | cons c rest =>
          rw [spelling] at tail
          exact ⟨c, rest, rfl, tail, tail.isWord_iff⟩
    · intro channel member
      exact (channels_isSegment read channel member).1
    · intro channel member
      exact (channels_isSegment read channel member).2
  · intro name
    constructor
    · intro accepted
      obtain ⟨text, found, read, module, inside, argument, member, rfl⟩ := accepted
      exact arguments read module inside argument member
    · intro proper
      exact exists_parse_argument kind proper.1 proper.2

/-- An echo in other letters, an index with a leading zero, and an argument name
that begins with a letter but ends in a digit behind a hyphen. -/
theorem spelled_of_parse_audit :
    let text := "audit = tap:STREAM:0:a-b.02 > t-1: log --x-9=1 > queue:_:7"
    let found : Pipeline :=
      ⟨some "audit", some ⟨.tap .stream, ["STREAM", "0", "a-b"], ["02"], ⟨8, 27⟩⟩,
        [⟨"log", some "t-1", [⟨"x-9", "1", ⟨39, 46⟩⟩], ⟨30, 46⟩⟩],
        some ⟨.queue, ["_", "7"], [], ⟨49, 58⟩⟩, ⟨0, 58⟩⟩
    parse .stream text = .ok found ∧ found.Spelled ∧ Text.IsWord "x-9".toList := by
  intro text found
  have read : parse .stream text = .ok found := eq_ok_of_toOption (by decide +kernel)
  have spelled : found.Spelled := (spelled_of_parse .stream).1 text found read
  refine ⟨read, spelled, ?_⟩
  obtain ⟨c, rest, spelling, -, isWord⟩ := spelled.argument _ List.mem_cons_self _
    List.mem_cons_self
  obtain ⟨rfl, rfl⟩ : 'x' = c ∧ ['-', '9'] = rest := by simpa [found] using spelling
  exact isWord.mpr (by decide)

/-- A number is accepted as the name of an argument, and so is a word behind a
hyphen of its own.  Neither is a word. -/
theorem spelled_of_parse_noWord :
    parse .stream "h --1=1" =
        .ok ⟨none, none, [⟨"h", none, [⟨"1", "1", ⟨2, 7⟩⟩], ⟨0, 7⟩⟩], none, ⟨0, 7⟩⟩ ∧
      parse .job "h ---a=1" =
        .ok ⟨none, none, [⟨"h", none, [⟨"-a", "1", ⟨2, 8⟩⟩], ⟨0, 8⟩⟩], none, ⟨0, 8⟩⟩ ∧
      ¬Text.IsWord "1".toList ∧ ¬Text.IsWord "-a".toList := by
  refine ⟨eq_ok_of_toOption ?_, eq_ok_of_toOption ?_, ?_, ?_⟩
  · decide +kernel
  · decide +kernel
  · decide
  · decide

end Pipeline

end Tapline
