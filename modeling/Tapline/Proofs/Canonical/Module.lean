import Tapline.Proofs.Canonical.Channel

/-!
# The canonical text of modules

The parts of a module are written apart, so each reads back as it would alone.
-/

namespace Tapline

/-- A text that is empty or goes on behind a space. -/
def Text.StartsApart (rest : List Char) : Prop :=
  ∀ c ∈ rest.head?, c = ' '

namespace Text.StartsApart

theorem nil : StartsApart [] := by
  simp [StartsApart]

theorem space (rest : List Char) : StartsApart (' ' :: rest) := by
  simp [StartsApart]

theorem endsWord {rest : List Char} (apart : StartsApart rest) : EndsWord rest := by
  intro c member
  rw [apart c member]
  decide

theorem endsValue {rest : List Char} (apart : StartsApart rest) :
    Piece.EndsValue rest := by
  intro c member
  rw [apart c member]
  decide

end Text.StartsApart

namespace Module

namespace Meaning

/-- What the grammar and the lexer demand of a module.  The name of an argument
need not begin like a word. -/
structure WellFormed (module : Meaning) : Prop where
  name_isWord : Text.IsWord module.name.toList
  label_isWord : ∀ label ∈ module.label, Text.IsWord label.toList
  label_ne_keyword : ∀ label ∈ module.label, ∀ keyword : ChannelKeyword,
    label ≠ keyword.word
  argument_spelled : ∀ argument ∈ module.arguments,
    Text.WordTail argument.1.toList
  argument_ne_empty : ∀ argument ∈ module.arguments, argument.1 ≠ ""
  arguments_nodup : (module.arguments.map Prod.fst).Nodup

def argumentTokens (argument : String × String) : List Token :=
  [.flag argument.1, .equals, .literal argument.2]

def tokens (module : Meaning) : List Token :=
  module.label.toList.flatMap (fun label => [.word label, .colon]) ++
    .word module.name :: module.arguments.flatMap argumentTokens

end Meaning

private theorem toList_argument (argument : Argument) :
    argument.text.toList =
      '-' :: '-' :: (argument.name.toList ++
        '=' :: Text.writeValue argument.value.toList) := by
  simp [Argument.text]

private theorem tokens_arguments {arguments : List Argument}
    (spelled : ∀ argument ∈ arguments, Text.WordTail argument.name.toList)
    {rest : List Char} (apart : Text.StartsApart rest) :
    Text.StartsApart (arguments.flatMap (' ' :: ·.text.toList) ++ rest) ∧
      Piece.tokens .ordinary (arguments.flatMap (' ' :: ·.text.toList) ++ rest) =
        (arguments.map Argument.entry).flatMap Meaning.argumentTokens ++
          Piece.tokens .ordinary rest := by
  induction arguments with
  | nil => exact ⟨apart, rfl⟩
  | cons argument arguments induction =>
      obtain ⟨apartLater, induction⟩ := induction fun later member =>
        spelled later (List.mem_cons_of_mem _ member)
      refine ⟨.space _, ?_⟩
      rw [List.flatMap_cons, toList_argument argument]
      simp only [List.cons_append, List.append_assoc, Piece.tokens_space]
      rw [Piece.tokens_argument argument.value
        (spelled argument List.mem_cons_self) apartLater.endsValue, induction]
      rfl

theorem tokens_render {module : Module} (wellFormed : module.meaning.WellFormed)
    {rest : List Char} (apart : Text.StartsApart rest) :
    Piece.tokens .ordinary ((module.render .canonical).toList ++ rest) =
      module.meaning.tokens ++ Piece.tokens .ordinary rest := by
  have spelled : ∀ argument ∈ module.arguments,
      Text.WordTail argument.name.toList := fun argument member =>
    wellFormed.argument_spelled argument.entry (List.mem_map_of_mem member)
  obtain ⟨apartArguments, argumentTokens⟩ := tokens_arguments spelled apart
  have body : Piece.tokens .ordinary (module.name.toList ++
      (module.arguments.flatMap (' ' :: ·.text.toList) ++ rest)) =
        .word module.name ::
          (module.meaning.arguments.flatMap Meaning.argumentTokens ++
            Piece.tokens .ordinary rest) := by
    have isWord : Text.IsWord module.name.toList := wellFormed.name_isWord
    rw [Piece.tokens_word isWord apartArguments.endsWord, argumentTokens]
    rfl
  have argumentsText : module.argumentsText.toList =
      module.arguments.flatMap (' ' :: ·.text.toList) := by
    simp [Module.argumentsText, List.flatMap_map]
  simp only [render, String.toList_append, argumentsText, List.append_assoc]
  cases label : module.label with
  | none =>
      have plain : module.meaning.label = none := label
      simp only [labelText, label, String.toList_empty, List.nil_append,
        Meaning.tokens, plain, Option.toList_none, List.flatMap_nil]
      exact body
  | some text =>
      have labelled : module.meaning.label = some text := label
      have isWord := wellFormed.label_isWord text labelled
      have separator : ": ".toList = [':', ' '] := rfl
      simp only [labelText, label, String.toList_append, separator,
        List.append_assoc, List.cons_append, List.nil_append]
      rw [Piece.tokens_word isWord (Text.endsWord_colon _), Piece.tokens_colon (by simp),
        Piece.tokens_space, body]
      simp [Meaning.tokens, Module.meaning, label]

end Module

namespace Grammar

private theorem star_argument {arguments : List (String × String)}
    (named : ∀ argument ∈ arguments, argument.1 ≠ "") :
    Star Argument (arguments.flatMap Module.Meaning.argumentTokens) arguments := by
  induction arguments with
  | nil => exact .nil
  | cons argument arguments induction =>
      exact .cons (.intro argument.2 (named argument List.mem_cons_self))
        (induction fun later member => named later (List.mem_cons_of_mem _ member))

theorem module_tokens {module : Module.Meaning} (wellFormed : module.WellFormed) :
    Grammar.Module module.tokens module := by
  have labelPhrase : Optional Label
      (module.label.toList.flatMap fun label => [.word label, .colon])
      module.label := by
    cases label : module.label with
    | none => exact .none
    | some text => exact .some (.intro (wellFormed.label_ne_keyword text label))
  exact .intro module.name labelPhrase (star_argument wellFormed.argument_ne_empty)
    wellFormed.arguments_nodup

end Grammar

end Tapline
