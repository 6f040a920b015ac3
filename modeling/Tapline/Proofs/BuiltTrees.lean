import Tapline.Proofs.RoundTrip

/-!
# Trees that no text was read for

A tree can also be put together by hand.  Its taps may lack the echo, a target
may be called `stream` or `job`, a value may be any text, and no span need fit.
What is asked of the parts as they stand is stated here, without the meaning
that printing goes through.

Cutting off an echo leaves segments of the same kind, and at least one of them.
So the meaning of a well-formed tree is well formed, and the text of the tree
is read back.
-/

namespace Tapline

namespace Channel

/-- A channel with a name made of words and numbers.  Only a tap has an index,
and only one. -/
structure WellFormed (channel : Channel) : Prop where
  segments_ne_nil : channel.segments ≠ []
  segments_isSegment : ∀ segment ∈ channel.segments, Text.IsSegment segment
  index_isSegment : ∀ element ∈ channel.index, Text.IsSegment element
  index_length_le : channel.index.length ≤ 1
  index_of_tap : channel.kind.isTap = false → channel.index = []

instance (channel : Channel) : Decidable channel.WellFormed :=
  decidable_of_iff
    (channel.segments ≠ [] ∧
      (∀ segment ∈ channel.segments, Text.IsSegment segment) ∧
      (∀ element ∈ channel.index, Text.IsSegment element) ∧
      channel.index.length ≤ 1 ∧
      (channel.kind.isTap = false → channel.index = []))
    ⟨fun ⟨named, segments, elements, short, onlyTap⟩ =>
        ⟨named, segments, elements, short, onlyTap⟩,
      fun ⟨named, segments, elements, short, onlyTap⟩ =>
        ⟨named, segments, elements, short, onlyTap⟩⟩

theorem WellFormed.meaning {channel : Channel} (wellFormed : channel.WellFormed) :
    channel.meaning.WellFormed where
  target_ne_nil := target_ne_nil wellFormed.segments_ne_nil
  target_isSegment := by
    intro segment member
    have inside : segment ∈ channel.segments := channel.target_suffix.subset member
    exact wellFormed.segments_isSegment segment inside
  index_isSegment := wellFormed.index_isSegment
  index_length_le := wellFormed.index_length_le
  index_of_tap := by
    intro indexed
    rw [← Bool.not_eq_false]
    intro noTap
    exact indexed (wellFormed.index_of_tap noTap)

end Channel

namespace Module

/-- A module whose names are words.  A label is no keyword, since it would open
a channel, and no two arguments have the same name. -/
structure WellFormed (module : Module) : Prop where
  name_isWord : Text.IsWord module.name.toList
  label_isWord : ∀ label ∈ module.label, Text.IsWord label.toList
  label_no_keyword : ∀ label ∈ module.label, ChannelKeyword.ofWord? label = none
  arguments_isWord : ∀ argument ∈ module.arguments,
    Text.IsWord argument.name.toList
  arguments_nodup : (module.arguments.map Argument.name).Nodup

instance (module : Module) : Decidable module.WellFormed :=
  decidable_of_iff
    (Text.IsWord module.name.toList ∧
      (∀ label ∈ module.label, Text.IsWord label.toList) ∧
      (∀ label ∈ module.label, ChannelKeyword.ofWord? label = none) ∧
      (∀ argument ∈ module.arguments, Text.IsWord argument.name.toList) ∧
      (module.arguments.map Argument.name).Nodup)
    ⟨fun ⟨name, label, free, arguments, distinct⟩ =>
        ⟨name, label, free, arguments, distinct⟩,
      fun ⟨name, label, free, arguments, distinct⟩ =>
        ⟨name, label, free, arguments, distinct⟩⟩

theorem WellFormed.meaning {module : Module} (wellFormed : module.WellFormed) :
    module.meaning.WellFormed where
  name_isWord := wellFormed.name_isWord
  label_isWord := wellFormed.label_isWord
  label_ne_keyword := by
    rintro label member keyword rfl
    have free := wellFormed.label_no_keyword _ member
    rw [ChannelKeyword.ofWord?_word] at free
    cases free
  argument_spelled := by
    intro entry member
    obtain ⟨argument, inside, rfl⟩ := List.mem_map.mp member
    exact (wellFormed.arguments_isWord argument inside).wordTail
  argument_ne_empty := by
    intro entry member empty
    obtain ⟨argument, inside, rfl⟩ := List.mem_map.mp member
    have isWord := wellFormed.arguments_isWord argument inside
    rw [show argument.name = "" from empty] at isWord
    cases isWord
  arguments_nodup := module.argumentNames_meaning ▸ wellFormed.arguments_nodup

end Module

namespace Pipeline

/-- A pipeline of well-formed parts, with at least one module.  Its labels tell
the modules apart, and a sink does not tap. -/
structure WellFormed (pipeline : Pipeline) : Prop where
  name_isWord : ∀ name ∈ pipeline.name, Text.IsWord name.toList
  source_wellFormed : ∀ channel ∈ pipeline.source, channel.WellFormed
  modules_ne_nil : pipeline.modules ≠ []
  modules_wellFormed : ∀ module ∈ pipeline.modules, module.WellFormed
  labels_nodup : pipeline.labels.Nodup
  sink_wellFormed : ∀ channel ∈ pipeline.sink, channel.WellFormed
  sink_no_tap : ∀ channel ∈ pipeline.sink, channel.kind.isTap = false

instance (pipeline : Pipeline) : Decidable pipeline.WellFormed :=
  decidable_of_iff
    ((∀ name ∈ pipeline.name, Text.IsWord name.toList) ∧
      (∀ channel ∈ pipeline.source, channel.WellFormed) ∧
      pipeline.modules ≠ [] ∧
      (∀ module ∈ pipeline.modules, module.WellFormed) ∧
      pipeline.labels.Nodup ∧
      (∀ channel ∈ pipeline.sink, channel.WellFormed) ∧
      ∀ channel ∈ pipeline.sink, channel.kind.isTap = false)
    ⟨fun ⟨name, source, nonempty, modules, labels, sink, noTap⟩ =>
        ⟨name, source, nonempty, modules, labels, sink, noTap⟩,
      fun ⟨name, source, nonempty, modules, labels, sink, noTap⟩ =>
        ⟨name, source, nonempty, modules, labels, sink, noTap⟩⟩

theorem WellFormed.meaning {pipeline : Pipeline} (wellFormed : pipeline.WellFormed) :
    pipeline.meaning.WellFormed where
  name_isWord := wellFormed.name_isWord
  source_wellFormed := by
    intro channel member
    obtain ⟨source, inside, rfl⟩ := Option.map_eq_some_iff.mp member
    exact (wellFormed.source_wellFormed source inside).meaning
  modules_wellFormed := by
    intro module member
    obtain ⟨built, inside, rfl⟩ := List.mem_map.mp member
    exact (wellFormed.modules_wellFormed built inside).meaning
  modules_ne_nil := by
    intro empty
    exact wellFormed.modules_ne_nil (List.map_eq_nil_iff.mp empty)
  labels_nodup := pipeline.labels_meaning ▸ wellFormed.labels_nodup
  sink_wellFormed := by
    intro channel member
    obtain ⟨sink, inside, rfl⟩ := Option.map_eq_some_iff.mp member
    exact (wellFormed.sink_wellFormed sink inside).meaning
  sink_no_tap := by
    intro channel member target tap
    obtain ⟨sink, inside, rfl⟩ := Option.map_eq_some_iff.mp member
    have noTap := wellFormed.sink_no_tap sink inside
    rw [show sink.kind = .tap target from tap] at noTap
    cases noTap

/-- The text of a well-formed tree is read, whatever made the tree.  What comes
out means the same, and it is written as the same text. -/
theorem parse_text_of_wellFormed (pipeline : Pipeline)
    (wellFormed : pipeline.WellFormed) :
    ∃ again, parse .stream pipeline.text = .ok again ∧
      pipeline.SameMeaning again ∧ again.text = pipeline.text := by
  obtain ⟨again, read, form⟩ := parse_text wellFormed.meaning
  have same : pipeline.SameMeaning again := by
    have meanings : again.meaning = pipeline.meaning := by
      rw [← meaning_form again, form, Meaning.meaning_form wellFormed.meaning]
    exact meanings.symm
  exact ⟨again, read, same, same.text_eq.symm⟩

/-- A job called `job` tapped without an echo, a module and a label called
`stream` and `job`-like words, values with quotes, signs, a control character
and a blank that only Unicode knows, and spans that fit nothing. -/
theorem parse_text_of_wellFormed_tapJob :
    let built : Pipeline :=
      ⟨some "tap", some ⟨.tap .job, ["job"], ["007"], ⟨9, 1⟩⟩,
        [⟨"stream", some "job-2",
            [⟨"where", "it's \"here\" | or; not\u00a0", ⟨3, 3⟩⟩,
              ⟨"_", "", ⟨0, 0⟩⟩, ⟨"bell", "\x07--x=1 > queue:q", ⟨8, 4⟩⟩],
            ⟨70, 2⟩⟩,
          ⟨"queue", none, [], ⟨0, 0⟩⟩],
        some ⟨.stream, ["stream", "0"], [], ⟨5, 5⟩⟩, ⟨1, 0⟩⟩
    built.WellFormed ∧
      ∃ again, parse .stream built.text = .ok again ∧ built.SameMeaning again ∧
        again.text = built.text := by
  intro built
  have wellFormed : built.WellFormed := by decide +kernel
  exact ⟨wellFormed, parse_text_of_wellFormed built wellFormed⟩

end Pipeline

end Tapline
