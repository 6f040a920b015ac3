import Mathlib.Data.List.Induction
import Mathlib.Data.Nat.Digits.Defs
import Tapline.Proofs.Resolution

/-!
# What resolving leads to

The outcomes of resolution are stated case by case, without the functions that
compute them.  The position that an index asks for is the number that it denotes
in the decimal system, however long it is written.

A reader whose numbers have to stay below a bound cannot tell numbers beyond it
from one another.  It does not have to: as long as no definition has more modules
than there are numbers, all of them are out of range.
-/

namespace Tapline

namespace Text

/-- The digits denote the value in the decimal system, the most significant digit
first. -/
def Denotes (digits : List Char) (value : Nat) : Prop :=
  IsNumber digits ∧ Nat.ofDigits 10 (digits.reverse.map digitValue) = value

private theorem digitsValue_eq_ofDigits (digits : List Char) :
    digitsValue digits = Nat.ofDigits 10 (digits.reverse.map digitValue) := by
  induction digits using List.reverseRecOn with
  | nil => rfl
  | append_singleton digits c induction =>
      have longer : digitsValue (digits ++ [c]) =
          10 * digitsValue digits + digitValue c := by
        simp [digitsValue]
      rw [longer, induction, List.reverse_append, List.reverse_singleton,
        List.singleton_append, List.map_cons, Nat.ofDigits_cons, Nat.add_comm]

private theorem isNumber_iff {digits : List Char} :
    IsNumber digits ↔ (!digits.isEmpty && digits.all Char.isDigit) = true := by
  cases digits with
  | nil =>
      have noNumber : ¬IsNumber [] := by
        intro isNumber
        cases isNumber
      simp [noNumber]
  | cons c rest =>
      constructor
      · intro isNumber
        cases isNumber with
        | intro digit others => simpa using ⟨digit, others⟩
      · intro all
        obtain ⟨digit, others⟩ : c.isDigit = true ∧ ∀ d ∈ rest, d.isDigit = true := by
          simpa using all
        exact .intro digit others

theorem decimal?_eq_some {text : String} {value : Nat} :
    decimal? text = some value ↔ Denotes text.toList value := by
  unfold decimal? Denotes
  rw [isNumber_iff, ← digitsValue_eq_ofDigits]
  simp only [Option.ite_none_right_eq_some, Option.some.injEq]

theorem decimal?_eq_none {text : String} :
    decimal? text = none ↔ ¬IsNumber text.toList := by
  unfold decimal?
  rw [isNumber_iff]
  simp only [ite_eq_right_iff, reduceCtorEq, imp_false]

/-- One more digit, unless the number does not stay below the bound. -/
def appendDigit? (bound value : Nat) (c : Char) : Option Nat :=
  if 10 * value + digitValue c < bound then some (10 * value + digitValue c) else none

/-- The number that the digits denote, read by a reader whose numbers stay below
the bound. -/
def digitsBelow? (bound : Nat) (digits : List Char) : Option Nat :=
  digits.foldlM (appendDigit? bound) 0

private theorem le_foldl_digits (digits : List Char) (value : Nat) :
    value ≤ digits.foldl (fun value c => 10 * value + digitValue c) value := by
  induction digits generalizing value with
  | nil => exact Nat.le_refl value
  | cons c rest induction =>
      have later := induction (10 * value + digitValue c)
      rw [List.foldl_cons]
      omega

/-- The bound is noticed at some digit exactly if the whole number exceeds it. -/
theorem digitsBelow?_eq {bound : Nat} (positive : 0 < bound) (digits : List Char) :
    digitsBelow? bound digits =
      if digitsValue digits < bound then some (digitsValue digits) else none := by
  have fromValue (value : Nat) (fits : value < bound) :
      digits.foldlM (appendDigit? bound) value =
        if digits.foldl (fun value c => 10 * value + digitValue c) value < bound then
          some (digits.foldl (fun value c => 10 * value + digitValue c) value)
        else none := by
    induction digits generalizing value with
    | nil => simp [fits]
    | cons c rest induction =>
        rw [List.foldlM_cons, List.foldl_cons]
        by_cases longer : 10 * value + digitValue c < bound
        · rw [appendDigit?, if_pos longer]
          exact induction _ longer
        · have grown := le_foldl_digits rest (10 * value + digitValue c)
          rw [appendDigit?, if_neg longer, if_neg (by omega)]
          rfl
  exact fromValue 0 positive

end Text

namespace Channel

/-- The position that an index asks for: the first module if nothing is written,
and otherwise the one whose number is written first. -/
inductive AsksAt : List String → Nat → Prop where
  | first : AsksAt [] 0
  | number {element : String} {others : List String} {position : Nat} :
      Text.Denotes element.toList position → AsksAt (element :: others) position

/-- The index begins with a label, which is anything but a number. -/
def NamesLabel (index : List String) : Prop :=
  ∃ element others, index = element :: others ∧ ¬Text.IsNumber element.toList

theorem position?_eq_some {channel : Channel} {position : Nat} :
    channel.position? = some position ↔ AsksAt channel.index position := by
  unfold position?
  split
  · rename_i empty
    rw [empty]
    constructor
    · rintro ⟨⟩
      exact .first
    · rintro ⟨⟩
      rfl
  · rename_i element others written
    rw [written, Text.decimal?_eq_some]
    constructor
    · exact .number
    · intro asksAt
      cases asksAt with
      | number denotes => exact denotes

theorem position?_eq_none {channel : Channel} :
    channel.position? = none ↔ NamesLabel channel.index := by
  unfold position?
  split
  · rename_i empty
    simp [empty, NamesLabel]
  · rename_i element others written
    simp [written, NamesLabel, Text.decimal?_eq_none]

/-- What resolving a channel leads to in an environment. -/
inductive ResolvesTo (environment : Environment) (channel : Channel) :
    Except Diagnostic Channel → Prop where
  | noTap : (∀ kind, channel.kind ≠ .tap kind) → ResolvesTo environment channel (.ok channel)
  | label : NamesLabel channel.index → ResolvesTo environment channel (.ok channel)
  | unknownStream {position : Nat} :
      channel.kind = .tap .stream → AsksAt channel.index position →
      environment.find? .stream channel.targetName = none →
      ResolvesTo environment channel
        (.error ⟨.unknownStream channel.targetName, channel.span⟩)
  | unknownJob {position : Nat} :
      channel.kind = .tap .job → AsksAt channel.index position →
      environment.find? .job channel.targetName = none →
      ResolvesTo environment channel
        (.error ⟨.unknownJob channel.targetName, channel.span⟩)
  /-- The index is reported as it is written, and as `0` if nothing is. -/
  | outOfRange {kind : Kind} {position : Nat} {target : Pipeline} :
      channel.kind = .tap kind → AsksAt channel.index position →
      environment.find? kind channel.targetName = some target →
      target.modules.length ≤ position →
      ResolvesTo environment channel
        (.error ⟨.tapIndexOutOfRange channel.targetName (channel.index.headD "0")
          target.modules.length, channel.span⟩)
  /-- The label takes the place of the first element, or becomes the only one. -/
  | found {kind : Kind} {position : Nat} {target : Pipeline} {module : Module} :
      channel.kind = .tap kind → AsksAt channel.index position →
      environment.find? kind channel.targetName = some target →
      target.modules[position]? = some module →
      ResolvesTo environment channel
        (.ok { channel with index := module.labelName :: channel.index.tail })

private theorem kind_eq_tap_of_tapped? {channel : Channel} {kind : Kind}
    (tapped : channel.kind.tapped? = some kind) : channel.kind = .tap kind := by
  cases same : channel.kind with
  | tap target =>
      rw [same] at tapped
      exact congrArg ChannelKind.tap (Option.some.inj tapped)
  | _ => simp [same, ChannelKind.tapped?] at tapped

theorem resolvesTo_resolve (environment : Environment) (channel : Channel) :
    channel.ResolvesTo environment (channel.resolve environment) := by
  unfold resolve
  split
  · rename_i kind position tapped asked
    have tap := kind_eq_tap_of_tapped? tapped
    have asksAt := position?_eq_some.mp asked
    dsimp only
    split
    · rename_i missing
      cases kind with
      | stream => exact .unknownStream tap asksAt missing
      | job => exact .unknownJob tap asksAt missing
    · rename_i target found
      rw [Pipeline.labelAt?, Pipeline.labels, List.getElem?_map]
      cases inside : target.modules[position]? with
      | none =>
          rw [← List.headD_eq_head?_getD]
          exact .outOfRange tap asksAt found (List.getElem?_eq_none_iff.mp inside)
      | some module => exact .found tap asksAt found inside
  · rename_i unasked
    cases tapped : channel.kind.tapped? with
    | none =>
        refine .noTap fun kind tap => ?_
        rw [tap] at tapped
        cases tapped
    | some kind =>
        refine .label (position?_eq_none.mp ?_)
        rw [Option.eq_none_iff_forall_ne_some]
        exact fun position asked => unasked kind position tapped asked

theorem ResolvesTo.resolve_eq {environment : Environment} {channel : Channel}
    {outcome : Except Diagnostic Channel}
    (resolvesTo : channel.ResolvesTo environment outcome) :
    channel.resolve environment = outcome := by
  cases resolvesTo with
  | noTap plain =>
      have untapped : channel.kind.tapped? = none := by
        rw [Option.eq_none_iff_forall_ne_some]
        exact fun kind tapped => plain kind (kind_eq_tap_of_tapped? tapped)
      simp [resolve, untapped]
  | label named => simp [resolve, position?_eq_none.mpr named]
  | unknownStream tap asksAt missing =>
      simp [resolve, tap, ChannelKind.tapped?, position?_eq_some.mpr asksAt, missing,
        unknownTarget]
  | unknownJob tap asksAt missing =>
      simp [resolve, tap, ChannelKind.tapped?, position?_eq_some.mpr asksAt, missing,
        unknownTarget]
  | outOfRange tap asksAt found short =>
      simp [resolve, tap, ChannelKind.tapped?, position?_eq_some.mpr asksAt, found,
        Pipeline.labelAt?, Pipeline.labels, short, List.headD_eq_head?_getD]
  | found tap asksAt found inside =>
      simp [resolve, tap, ChannelKind.tapped?, position?_eq_some.mpr asksAt, found,
        Pipeline.labelAt?, Pipeline.labels, inside, withIndex]

theorem resolve_eq_iff {environment : Environment} {channel : Channel}
    {outcome : Except Diagnostic Channel} :
    channel.resolve environment = outcome ↔ channel.ResolvesTo environment outcome :=
  ⟨fun same => same ▸ resolvesTo_resolve environment channel, ResolvesTo.resolve_eq⟩

/-- How an index is read where numbers have to stay below a bound. -/
inductive IndexReading where
  | position (value : Nat)
  /-- A number that does not stay below the bound. -/
  | excess
  | label

def readIndexBelow (bound : Nat) : List String → IndexReading
  | [] => .position 0
  | element :: _ =>
      if Text.IsNumber element.toList then
        match Text.digitsBelow? bound element.toList with
        | some value => .position value
        | none => .excess
      else
        .label

/-- The outcome for a tap whose index has been read as a position. -/
def resolveAt (environment : Environment) (channel : Channel) (kind : Kind)
    (position : Nat) : Except Diagnostic Channel :=
  match environment.find? kind channel.targetName with
  | none => .error ⟨unknownTarget kind channel.targetName, channel.span⟩
  | some target =>
      match target.labelAt? position with
      | some label => .ok (channel.withIndex (label :: channel.index.tail))
      | none =>
          .error ⟨.tapIndexOutOfRange channel.targetName (channel.index.headD "0")
            target.modules.length, channel.span⟩

/-- Resolution by such a reader.  What exceeds its numbers is out of the range of
every target. -/
def resolveBelow (bound : Nat) (environment : Environment) (channel : Channel) :
    Except Diagnostic Channel :=
  match channel.kind.tapped? with
  | none => .ok channel
  | some kind =>
      match readIndexBelow bound channel.index with
      | .label => .ok channel
      | .position position => channel.resolveAt environment kind position
      | .excess =>
          match environment.find? kind channel.targetName with
          | none => .error ⟨unknownTarget kind channel.targetName, channel.span⟩
          | some target =>
              .error ⟨.tapIndexOutOfRange channel.targetName (channel.index.headD "0")
                target.modules.length, channel.span⟩

theorem resolve_eq_resolveAt (environment : Environment) {channel : Channel}
    {kind : Kind} {position : Nat} (tapped : channel.kind.tapped? = some kind)
    (asked : channel.position? = some position) :
    channel.resolve environment = channel.resolveAt environment kind position := by
  cases found : environment.find? kind channel.targetName with
  | none => simp [resolve, resolveAt, tapped, asked, found]
  | some target =>
      cases labelled : target.labelAt? position with
      | none =>
          simp [resolve, resolveAt, tapped, asked, found, labelled,
            List.headD_eq_head?_getD]
      | some label => simp [resolve, resolveAt, tapped, asked, found, labelled]

/-- The bound makes no difference if no target has more modules. -/
theorem resolveBelow_eq_resolve {bound : Nat} (positive : 0 < bound)
    {environment : Environment}
    (fits : ∀ kind name target, environment.find? kind name = some target →
      target.modules.length ≤ bound) (channel : Channel) :
    channel.resolveBelow bound environment = channel.resolve environment := by
  cases tapped : channel.kind.tapped? with
  | none => simp [resolveBelow, resolve, tapped]
  | some kind =>
      cases written : channel.index with
      | nil =>
          have asked : channel.position? = some 0 :=
            position?_eq_some.mpr (written ▸ .first)
          rw [resolve_eq_resolveAt environment tapped asked]
          simp [resolveBelow, tapped, written, readIndexBelow]
      | cons element others =>
          by_cases isNumber : Text.IsNumber element.toList
          · have asked : channel.position? = some (Text.digitsValue element.toList) :=
              position?_eq_some.mpr (written ▸ .number
                ⟨isNumber, (Text.digitsValue_eq_ofDigits _).symm⟩)
            rw [resolve_eq_resolveAt environment tapped asked]
            simp only [resolveBelow, tapped, written, readIndexBelow, isNumber, if_true,
              Text.digitsBelow?_eq positive]
            generalize Text.digitsValue element.toList = position
            by_cases below : position < bound
            · simp [below]
            · cases found : environment.find? kind channel.targetName with
              | none => simp [below, resolveAt, found]
              | some target =>
                  have short := fits kind channel.targetName target found
                  have beyond : target.labelAt? position = none := by
                    simp only [Pipeline.labelAt?, Pipeline.labels, List.getElem?_map,
                      Option.map_eq_none_iff, List.getElem?_eq_none_iff]
                    omega
                  simp [below, resolveAt, found, beyond, written]
          · have named : channel.position? = none :=
              position?_eq_none.mpr ⟨element, others, written, isNumber⟩
            simp [resolveBelow, resolve, tapped, written, named, readIndexBelow, isNumber]

end Channel

namespace Pipeline

/-- What resolving a pipeline leads to: the source is resolved first, the first
problem is the outcome, and nothing but the two ends of the pipeline changes. -/
inductive ResolvesTo (environment : Environment) (pipeline : Pipeline) :
    Except Diagnostic Pipeline → Prop where
  | sourceFails {source : Channel} {diagnostic : Diagnostic} :
      pipeline.source = some source →
      source.ResolvesTo environment (.error diagnostic) →
      ResolvesTo environment pipeline (.error diagnostic)
  | sinkFails {source : Option Channel} {sink : Channel} {diagnostic : Diagnostic} :
      Option.Rel (·.ResolvesTo environment <| .ok ·) pipeline.source source →
      pipeline.sink = some sink →
      sink.ResolvesTo environment (.error diagnostic) →
      ResolvesTo environment pipeline (.error diagnostic)
  | resolved {source sink : Option Channel} :
      Option.Rel (·.ResolvesTo environment <| .ok ·) pipeline.source source →
      Option.Rel (·.ResolvesTo environment <| .ok ·) pipeline.sink sink →
      ResolvesTo environment pipeline (.ok { pipeline with source, sink })

theorem resolveChannel?_eq_ok {environment : Environment}
    {written resolved : Option Channel} :
    resolveChannel? environment written = .ok resolved ↔
      Option.Rel (·.ResolvesTo environment <| .ok ·) written resolved := by
  cases written with
  | none =>
      constructor
      · rintro ⟨⟩
        exact .none
      · rintro ⟨⟩
        rfl
  | some channel =>
      rw [resolveChannel?_some_eq_ok]
      constructor
      · rintro ⟨found, resolves, rfl⟩
        exact .some (Channel.resolve_eq_iff.mp resolves)
      · rintro ⟨resolves⟩
        exact ⟨_, Channel.resolve_eq_iff.mpr resolves, rfl⟩

theorem resolveChannel?_eq_error {environment : Environment}
    {written : Option Channel} {diagnostic : Diagnostic} :
    resolveChannel? environment written = .error diagnostic ↔
      ∃ channel, written = some channel ∧
        channel.ResolvesTo environment (.error diagnostic) := by
  cases written with
  | none => simp [resolveChannel?]
  | some channel =>
      rw [resolveChannel?, map_eq_error, Channel.resolve_eq_iff]
      simp only [Option.some.injEq, exists_eq_left']

theorem resolve_eq_iff {environment : Environment} {pipeline : Pipeline}
    {outcome : Except Diagnostic Pipeline} :
    pipeline.resolve environment = outcome ↔
      pipeline.ResolvesTo environment outcome := by
  cases outcome with
  | ok resolved =>
      rw [resolve_eq_ok]
      simp only [resolveChannel?_eq_ok]
      constructor
      · rintro ⟨source, sink, sourceResolves, sinkResolves, rfl⟩
        exact .resolved sourceResolves sinkResolves
      · rintro ⟨⟩
        exact ⟨_, _, ‹_›, ‹_›, rfl⟩
  | error diagnostic =>
      simp only [resolve, bind_eq_error, resolveChannel?_eq_error, resolveChannel?_eq_ok,
        reduceCtorEq, and_false, exists_false, or_false]
      constructor
      · rintro (⟨source, written, fails⟩ | ⟨source, resolves, sink, written, fails⟩)
        · exact .sourceFails written fails
        · exact .sinkFails resolves written fails
      · rintro (⟨written, fails⟩ | ⟨resolves, written, fails⟩)
        · exact .inl ⟨_, written, fails⟩
        · exact .inr ⟨_, resolves, _, written, fails⟩

end Pipeline

namespace Environment

/-- In every environment, resolving leads to the outcome that is described case by
case and to no other.  A reader whose numbers have 64 bits finds the same outcomes,
provided that the modules of each definition can be counted with them. -/
theorem resolve_iff_resolvesTo (environment : Environment) :
    (∀ (channel : Channel) outcome, channel.resolve environment = outcome ↔
      channel.ResolvesTo environment outcome) ∧
    (∀ (pipeline : Pipeline) outcome, pipeline.resolve environment = outcome ↔
      pipeline.ResolvesTo environment outcome) ∧
    ((∀ kind name target, environment.find? kind name = some target →
        target.modules.length < 2 ^ 64) →
      ∀ channel : Channel,
        channel.resolveBelow (2 ^ 64) environment = channel.resolve environment) := by
  refine ⟨?_, ?_, ?_⟩
  · exact fun _ _ => Channel.resolve_eq_iff
  · exact fun _ _ => Pipeline.resolve_eq_iff
  · intro fits channel
    refine Channel.resolveBelow_eq_resolve (by decide) ?_ channel
    exact fun kind name target found => Nat.le_of_lt (fits kind name target found)

/-- A position that would be the second module if it were read modulo `2 ^ 64`,
with a zero in front. -/
theorem resolve_iff_resolvesTo_excess :
    let module (name : String) : Module := ⟨name, none, [], .origin⟩
    let main : Pipeline :=
      ⟨none, none, [module "http", module "transform", module "file"], none, .origin⟩
    let environment : Environment :=
      ⟨fun kind name => if kind = .stream ∧ name = "main" then some main else none⟩
    let index := "018446744073709551617"
    let channel : Channel := ⟨.tap .stream, ["Stream", "main"], [index], ⟨0, 37⟩⟩
    let diagnostic : Diagnostic := ⟨.tapIndexOutOfRange "main" index 3, ⟨0, 37⟩⟩
    (∀ kind name target, environment.find? kind name = some target →
      target.modules.length < 2 ^ 64) ∧
    channel.ResolvesTo environment (.error diagnostic) ∧
    channel.resolveBelow (2 ^ 64) environment = .error diagnostic := by
  intro module main environment index channel diagnostic
  have fits : ∀ kind name target, environment.find? kind name = some target →
      target.modules.length < 2 ^ 64 := by
    intro kind name target found
    obtain ⟨-, same⟩ := Option.ite_none_right_eq_some.mp found
    cases same
    decide
  have fails : channel.resolve environment = .error diagnostic :=
    eq_error_of_failure? (by decide +kernel)
  obtain ⟨channels, -, bounded⟩ := resolve_iff_resolvesTo environment
  exact ⟨fits, (channels channel _).mp fails, (bounded fits channel).trans fails⟩

end Environment

end Tapline
