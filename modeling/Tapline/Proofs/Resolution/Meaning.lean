import Tapline.Proofs.Meaning
import Tapline.Proofs.Resolution

/-!
# Resolution up to meaning

Resolution looks at the kind, the target and the index of a channel, which are its
meaning, and at the labels of what it taps.  So two spellings of one meaning come to the
same wherever the same labels are known: both have the same problem, or both get the
same label.
-/

namespace Tapline

/-- The same problem, perhaps in different places. -/
def Diagnostic.SameProblem (left right : Diagnostic) : Prop :=
  left.problem = right.problem

namespace Channel

theorem SameMeaning.withIndex {left right : Channel} (same : left.SameMeaning right)
    (index : List String) :
    (left.withIndex index).SameMeaning (right.withIndex index) := by
  obtain ⟨kind, target, -⟩ := sameMeaning_iff.mp same
  exact sameMeaning_iff.mpr ⟨kind, target, rfl⟩

theorem SameMeaning.resolve {left right : Channel} (same : left.SameMeaning right)
    (environment : Environment) :
    Alike Diagnostic.SameProblem SameMeaning (left.resolve environment)
      (right.resolve environment) := by
  obtain ⟨kind, target, index⟩ := sameMeaning_iff.mp same
  have name : left.targetName = right.targetName :=
    congrArg (":".intercalate ·) target
  have position : left.position? = right.position? := by
    rw [position?, position?, index]
  unfold Channel.resolve
  rw [kind, name, position, index]
  cases right.kind.tapped? with
  | none => exact .ok same
  | some tapped =>
      cases right.position? with
      | none => exact .ok same
      | some asked =>
          cases found : environment.find? tapped right.targetName with
          | none =>
              simp only [found]
              exact .error rfl
          | some tree =>
              cases labelled : tree.labelAt? asked with
              | none =>
                  simp only [found, labelled]
                  exact .error rfl
              | some label =>
                  simp only [found, labelled]
                  exact .ok (same.withIndex _)

end Channel

namespace Pipeline

theorem resolveChannel?_alike {left right : Option Channel}
    (same : Option.Rel Channel.Agrees left right) (environment : Environment) :
    Alike Diagnostic.SameProblem (Option.Rel Channel.Agrees)
      (resolveChannel? environment left) (resolveChannel? environment right) := by
  cases same with
  | none => exact .ok .none
  | some agrees =>
      apply ((Channel.sameMeaning_iff.mpr agrees).resolve environment).map
      exact fun _ _ meanings => .some (Channel.sameMeaning_iff.mp meanings)

theorem SameMeaning.resolve {left right : Pipeline} (same : left.SameMeaning right)
    (environment : Environment) :
    Alike Diagnostic.SameProblem SameMeaning (left.resolve environment)
      (right.resolve environment) := by
  obtain ⟨name, source, modules, sink⟩ := sameMeaning_iff.mp same
  apply (resolveChannel?_alike source environment).bind
  intro leftSource rightSource sameSource
  apply (resolveChannel?_alike sink environment).bind
  intro leftSink rightSink sameSink
  exact .ok (sameMeaning_iff.mpr ⟨name, sameSource, modules, sameSink⟩)

/-- Trees that mean the same, each resolved among definitions with the same labels,
have the same problem or resolve to trees that mean the same. -/
theorem resolve_respects_meaning (left right : Pipeline) (first second : Environment)
    (same : left.SameMeaning right) (labels : first.SameLabels second) :
    Alike Diagnostic.SameProblem SameMeaning (left.resolve first)
      (right.resolve second) := by
  rw [resolve_of_sameLabels labels]
  exact same.resolve second

/-- An echo in other letters and other modules under the same labels: one position has
a label, and the other has none in either place. -/
theorem resolve_respects_meaning_echoed :
    let tapping (segments : List String) (position : String) (stop : Nat) : Pipeline :=
      ⟨none, some ⟨.tap .stream, segments, [position], ⟨0, stop⟩⟩,
        [⟨"log", none, [], ⟨stop + 1, stop + 4⟩⟩], none, ⟨0, stop + 4⟩⟩
    let knowing (modules : List Module) : Environment :=
      ⟨fun kind name =>
        if kind = .stream ∧ name = "main" then
          some ⟨none, none, modules, none, .origin⟩
        else
          none⟩
    let first := knowing [⟨"http", none, [], ⟨0, 4⟩⟩, ⟨"jms", some "file", [], ⟨7, 16⟩⟩]
    let second := knowing [⟨"jms", some "http", [], ⟨0, 9⟩⟩, ⟨"file", none, [], ⟨10, 14⟩⟩]
    first.SameLabels second ∧
      Alike Diagnostic.SameProblem SameMeaning
        ((tapping ["STREAM", "main"] "01" 18).resolve first)
        ((tapping ["main"] "01" 11).resolve second) ∧
      (tapping ["main"] "01" 11).resolve second = .ok (tapping ["main"] "file" 11) ∧
      Alike Diagnostic.SameProblem SameMeaning
        ((tapping ["STREAM", "main"] "2" 17).resolve first)
        ((tapping ["main"] "2" 10).resolve second) ∧
      (tapping ["main"] "2" 10).resolve second =
        .error ⟨.tapIndexOutOfRange "main" "2" 2, ⟨0, 10⟩⟩ := by
  intro tapping knowing first second
  have labels : first.SameLabels second := by
    intro kind name
    simp only [first, second, knowing]
    split <;> rfl
  refine ⟨labels, ?_, ?_, ?_, ?_⟩
  · exact resolve_respects_meaning _ _ first second (by decide +kernel) labels
  · exact eq_ok_of_toOption (by decide +kernel)
  · exact resolve_respects_meaning _ _ first second (by decide +kernel) labels
  · exact eq_error_of_failure? (by decide +kernel)

end Pipeline

end Tapline
