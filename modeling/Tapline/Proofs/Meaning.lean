import Mathlib.Data.List.Forall2
import Tapline.Proofs.RoundTrip

/-!
# Meanings and canonical texts

Two trees mean the same if they agree part by part, the echoes of taps and the
positions left aside.  The canonical text depends on the meaning alone.  It also
determines the meaning of every well-formed tree, since it can be read again and what
comes out means the same.  Trees that were not read from a text are no concern of it:
with a sign inside a name they may differ and be written alike.
-/

namespace Tapline

/-- Both refer to the same target in the same way. -/
structure Channel.Agrees (left right : Channel) : Prop where
  kind_eq : left.kind = right.kind
  target_eq : left.target = right.target
  index_eq : left.index = right.index

/-- Both have the same name, the same label if any, and the same arguments in order. -/
structure Module.Agrees (left right : Module) : Prop where
  name_eq : left.name = right.name
  label_eq : left.label = right.label
  arguments_agree : List.Forall₂ (fun one other : Argument =>
    one.name = other.name ∧ one.value = other.value) left.arguments right.arguments

/-- Both agree part by part. -/
structure Pipeline.Agrees (left right : Pipeline) : Prop where
  name_eq : left.name = right.name
  source_agrees : Option.Rel Channel.Agrees left.source right.source
  modules_agree : List.Forall₂ Module.Agrees left.modules right.modules
  sink_agrees : Option.Rel Channel.Agrees left.sink right.sink

private theorem map_eq_map_iff_forall₂ {f : α → β} {left right : List α} :
    left.map f = right.map f ↔
      List.Forall₂ (fun one other => f one = f other) left right := by
  rw [← List.forall₂_eq_eq_eq, List.forall₂_map_left_iff, List.forall₂_map_right_iff]

private theorem optionMap_eq_optionMap_iff_rel {f : α → β} {left right : Option α} :
    left.map f = right.map f ↔
      Option.Rel (fun one other => f one = f other) left right := by
  cases left <;> cases right <;> simp [Option.rel_some_some]

theorem Channel.sameMeaning_iff {left right : Channel} :
    left.SameMeaning right ↔ left.Agrees right := by
  unfold SameMeaning meaning
  rw [Meaning.mk.injEq]
  constructor
  · rintro ⟨kind, target, index⟩
    exact ⟨kind, target, index⟩
  · rintro ⟨kind, target, index⟩
    exact ⟨kind, target, index⟩

theorem Module.sameMeaning_iff {left right : Module} :
    left.SameMeaning right ↔ left.Agrees right := by
  unfold SameMeaning meaning
  rw [Meaning.mk.injEq, map_eq_map_iff_forall₂]
  simp only [Argument.entry, Prod.mk.injEq]
  constructor
  · rintro ⟨name, label, arguments⟩
    exact ⟨name, label, arguments⟩
  · rintro ⟨name, label, arguments⟩
    exact ⟨name, label, arguments⟩

namespace Pipeline

theorem sameMeaning_iff {left right : Pipeline} :
    left.SameMeaning right ↔ left.Agrees right := by
  have channels : (fun one other : Channel => one.meaning = other.meaning) =
      Channel.Agrees := by
    funext one other
    exact propext Channel.sameMeaning_iff
  have modules : (fun one other : Module => one.meaning = other.meaning) =
      Module.Agrees := by
    funext one other
    exact propext Module.sameMeaning_iff
  unfold SameMeaning meaning
  rw [Meaning.mk.injEq, map_eq_map_iff_forall₂, optionMap_eq_optionMap_iff_rel,
    optionMap_eq_optionMap_iff_rel, channels, modules]
  constructor
  · rintro ⟨name, source, modules, sink⟩
    exact ⟨name, source, modules, sink⟩
  · rintro ⟨name, source, modules, sink⟩
    exact ⟨name, source, modules, sink⟩

theorem exists_read_text {pipeline : Pipeline} (wellFormed : pipeline.meaning.WellFormed) :
    ∃ again, parse .stream pipeline.text = .ok again ∧ pipeline.SameMeaning again := by
  obtain ⟨again, read, form⟩ := parse_text wellFormed
  refine ⟨again, read, ?_⟩
  unfold SameMeaning
  rw [← meaning_form again, form, Meaning.meaning_form wellFormed]

theorem sameMeaning_of_text_eq {left right : Pipeline}
    (leftWellFormed : left.meaning.WellFormed)
    (rightWellFormed : right.meaning.WellFormed) (texts : left.text = right.text) :
    left.SameMeaning right := by
  obtain ⟨again, read, same⟩ := exists_read_text leftWellFormed
  obtain ⟨other, readOther, sameOther⟩ := exists_read_text rightWellFormed
  rw [texts, readOther] at read
  obtain rfl := Except.ok.inj read
  exact Eq.trans same (Eq.symm sameOther)

/-- To mean the same is an equivalence, namely to agree part by part.  Whatever means
the same is written as the same text, and trees that were read mean the same if they are
written as the same text. -/
theorem text_decides_meaning :
    Equivalence SameMeaning ∧
      (∀ left right : Pipeline, left.SameMeaning right ↔ left.Agrees right) ∧
        (∀ left right : Pipeline, left.SameMeaning right → left.text = right.text) ∧
          ∀ leftKind leftText left rightKind rightText right,
            parse leftKind leftText = .ok left → parse rightKind rightText = .ok right →
              left.text = right.text → left.SameMeaning right := by
  refine ⟨⟨?_, ?_, ?_⟩, ?_, ?_, ?_⟩
  · exact fun pipeline => rfl
  · exact fun same => Eq.symm same
  · exact fun first second => Eq.trans first second
  · exact fun left right => sameMeaning_iff
  · exact fun left right same => same.text_eq
  · intro leftKind leftText left rightKind rightText right leftRead rightRead
    exact sameMeaning_of_text_eq (wellFormed_of_parse leftRead)
      (wellFormed_of_parse rightRead)

/-- An echo in other letters, in front of a segment that is called like the kind, and
quotes that are not needed.  Without the echo it is the name of another definition. -/
theorem text_decides_meaning_echoed :
    let canonical := "tap:stream:stream:main.2 > file --where=here"
    ∃ written odd bare,
      parse .stream canonical = .ok written ∧
        parse .stream "tap:STREAM:stream:main.2>file --where='here'" = .ok odd ∧
          parse .stream "tap:stream:main.2 > file --where=here" = .ok bare ∧
            written.SameMeaning odd ∧ ¬written.SameMeaning bare := by
  intro canonical
  have writtenText :
      (parse .stream canonical).toOption.map text = some canonical := by
    decide +kernel
  have oddText : (parse .stream
      "tap:STREAM:stream:main.2>file --where='here'").toOption.map text =
        some canonical := by
    decide +kernel
  have bareText : (parse .stream
      "tap:stream:main.2 > file --where=here").toOption.map text =
        some "tap:stream:main.2 > file --where=here" := by
    decide +kernel
  obtain ⟨written, writtenReads, sameText⟩ := Option.map_eq_some_iff.mp writtenText
  obtain ⟨odd, oddReads, oddSameText⟩ := Option.map_eq_some_iff.mp oddText
  obtain ⟨bare, bareReads, otherText⟩ := Option.map_eq_some_iff.mp bareText
  have writtenRead := eq_ok_of_toOption writtenReads
  have oddRead := eq_ok_of_toOption oddReads
  obtain ⟨-, -, sameTexts, sameMeanings⟩ := text_decides_meaning
  refine ⟨written, odd, bare, writtenRead, oddRead, eq_ok_of_toOption bareReads, ?_, ?_⟩
  · exact sameMeanings _ _ _ _ _ _ writtenRead oddRead (sameText.trans oddSameText.symm)
  · intro same
    have texts := sameTexts written bare same
    rw [sameText, otherText] at texts
    simp [canonical] at texts

/-- A sign inside a name makes one module look like two. -/
example :
    let module (name : String) : Module := ⟨name, none, [], .origin⟩
    let single : Pipeline := ⟨none, none, [module "http | file"], none, .origin⟩
    let pair : Pipeline := ⟨none, none, [module "http", module "file"], none, .origin⟩
    single.text = pair.text ∧ ¬single.SameMeaning pair := by
  decide +kernel

end Pipeline

end Tapline
