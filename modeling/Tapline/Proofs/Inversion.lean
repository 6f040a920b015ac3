import Tapline.Pipeline.Parser
import Tapline.Proofs.Outcome

/-!
# What readers return

A reader succeeds in few ways.  For each of them it is said which tokens stand at the
cursor, what the readers that it calls return, and what it returns itself.
-/

namespace Tapline

theorem ChannelKeyword.ofWord?_eq_some {text : String} {keyword : ChannelKeyword} :
    ofWord? text = some keyword ↔ text = keyword.word := by
  constructor
  · intro found
    unfold ofWord? at found
    split at found
    all_goals
      cases found
      try rfl
  · rintro rfl
    exact ofWord?_word keyword

theorem ChannelKeyword.ofWord?_eq_none {text : String} :
    ofWord? text = none ↔ ∀ keyword : ChannelKeyword, text ≠ keyword.word := by
  rw [Option.eq_none_iff_forall_ne_some]
  simp only [ne_eq, ofWord?_eq_some]

namespace Cursor

/-- A word is under the cursor, and the sign comes next. -/
def Opens (cursor : Cursor) (text : String) (sign : Token) : Prop :=
  cursor.token = .word text ∧ cursor.nextToken = sign

variable {cursor after next last : Cursor}

theorem segments_nil {separator : Token} {isSeparator : separator.segment? = none}
    {make : String → Problem} (elsewhere : cursor.token ≠ separator) :
    cursor.segments separator isSeparator make = .ok ([], cursor) := by
  rw [segments, dif_neg elsewhere]

theorem segments_cons {separator : Token} {isSeparator : separator.segment? = none}
    {make : String → Problem} {text : String} {more : List String}
    (here : cursor.token = separator)
    (read : cursor.advance.segment make = .ok (text, next))
    (later : next.segments separator isSeparator make = .ok (more, last)) :
    cursor.segments separator isSeparator make = .ok (text :: more, last) := by
  rw [segments, dif_pos here]
  split
  · rename_i failed
    simp [read] at failed
  · rename_i succeeded
    rw [read] at succeeded
    cases succeeded
    simp [later]

theorem channelKeyword?_eq_some_iff {keyword : ChannelKeyword} :
    cursor.channelKeyword? = some keyword ↔ cursor.Opens keyword.word .colon := by
  unfold channelKeyword? Opens
  split
  · rename_i text here colon
    simp [here, colon, ChannelKeyword.ofWord?_eq_some]
  · rename_i closed
    constructor
    · rintro ⟨⟩
    · exact fun opens => (closed _ opens.1 opens.2).elim

theorem label_eq_ok {found : Option String} :
    cursor.label = .ok (found, after) ↔
      (∃ text, cursor.Opens text .colon ∧ ChannelKeyword.ofWord? text = none ∧
        found = some text ∧ after = cursor.advance.advance) ∨
      ((∀ text, ¬cursor.Opens text .colon) ∧ found = none ∧ after = cursor) := by
  unfold label Opens
  split
  · rename_i text here colon
    cases free : ChannelKeyword.ofWord? text <;> simp [here, colon, free, eq_comm]
  · rename_i unlabelled
    constructor
    · rintro ⟨⟩
      exact .inr ⟨fun text opens => unlabelled text opens.1 opens.2, rfl, rfl⟩
    · rintro (⟨text, opens, -⟩ | ⟨-, rfl, rfl⟩)
      · exact (unlabelled text opens.1 opens.2).elim
      · rfl

theorem exists_word_of_module {found : Module}
    (read : cursor.module = .ok (found, after)) : ∃ text, cursor.token = .word text := by
  obtain ⟨label, cursor₁, name, cursor₂, arguments, labelRead, nameRead, -, -⟩ :=
    module_eq_ok read
  rcases label_eq_ok.mp labelRead with ⟨text, opens, -⟩ | ⟨-, -, rfl⟩
  · exact ⟨text, opens.1⟩
  · unfold moduleName at nameRead
    split at nameRead
    · rename_i text word
      exact ⟨text, word⟩
    · cases nameRead

theorem argument_eq_ok {name : String} {cursor after : Cursor}
    {found : Argument} :
    cursor.argument name = .ok (found, after) ↔
      name ≠ "" ∧ cursor.advance.token = .equals ∧
        ∃ value, cursor.advance.advance.token = .literal value ∧
          after = cursor.advance.advance.advance ∧
          found = ⟨name, value, cursor.span.merge after.before⟩ := by
  have isEmpty_iff : name.isEmpty = true ↔ name = "" := String.isEmpty_iff
  unfold argument
  constructor
  · intro read
    split at read
    · simp at read
    · rename_i named
      simp only at read
      split at read
      · rename_i equals
        split at read
        · rename_i value literal
          simp only [Except.ok.injEq, Prod.mk.injEq] at read
          obtain ⟨rfl, rfl⟩ := read
          exact ⟨fun empty => named (isEmpty_iff.mpr empty), equals, value,
            literal, rfl, rfl⟩
        · simp at read
      · simp at read
  · rintro ⟨named, equals, value, literal, rfl, rfl⟩
    simp [named, equals, literal]

theorem arguments_nil {module : String} {seen : List String}
    (noFlag : ∀ name, cursor.token ≠ .flag name) :
    cursor.arguments module seen = .ok ([], cursor) := by
  rw [arguments]
  split
  · rename_i name flag
    exact (noFlag name flag).elim
  · rfl

theorem arguments_cons {module name : String} {seen : List String}
    {argument : Argument} {more : List Argument} (flag : cursor.token = .flag name)
    (read : cursor.argument name = .ok (argument, next)) (fresh : name ∉ seen)
    (later : next.arguments module (name :: seen) = .ok (more, last)) :
    cursor.arguments module seen = .ok (argument :: more, last) := by
  rw [arguments]
  split
  · rename_i other here
    obtain rfl : name = other := Token.flag.inj (flag.symm.trans here)
    split
    · rename_i failed
      simp [read] at failed
    · rename_i succeeded
      rw [read] at succeeded
      cases succeeded
      simp [fresh, later]
  · rename_i other
    exact (other name flag).elim

/-- The first module, and those behind the pipes that follow it. -/
theorem modules_of_module {module : Module}
    (read : cursor.module = .ok (module, next)) :
    cursor.modules = Prod.map (module :: ·) id <$> next.modulesAfterPipe := by
  obtain ⟨text, word⟩ := exists_word_of_module read
  simp only [modules, word, read, bind, Except.bind]
  cases next.modulesAfterPipe <;> rfl

theorem modules_eq_ok {found : List Module} (read : cursor.modules = .ok (found, after)) :
    ∃ module next more, cursor.module = .ok (module, next) ∧
      next.modulesAfterPipe = .ok (more, after) ∧ found = module :: more := by
  unfold modules at read
  split at read
  · cases read
  · cases read
  · simp only [bind_eq_ok, Prod.exists, Except.ok.injEq, Prod.mk.injEq] at read
    obtain ⟨module, next, moduleRead, more, last, moreRead, rfl, rfl⟩ := read
    exact ⟨module, next, more, moduleRead, moreRead, rfl⟩

theorem modulesAfterPipe_of_module {module : Module} (pipe : cursor.token = .pipe)
    (read : cursor.advance.module = .ok (module, next)) :
    cursor.modulesAfterPipe = Prod.map (module :: ·) id <$> next.modulesAfterPipe := by
  obtain ⟨text, word⟩ := exists_word_of_module read
  have proper : ¬(cursor.advance.token = .endOfInput ∨
      cursor.advance.token = .pipe ∨ cursor.advance.token = .arrow) := by
    simp [word]
  rw [modulesAfterPipe, dif_pos pipe, dif_neg proper]
  split
  · rename_i failed
    simp [read] at failed
  · rename_i succeeded
    rw [read] at succeeded
    cases succeeded
    cases next.modulesAfterPipe <;> rfl

theorem modulesAfterPipe_of_modules {found : List Module} (pipe : cursor.token = .pipe)
    (read : cursor.advance.modules = .ok (found, after)) :
    cursor.modulesAfterPipe = .ok (found, after) := by
  obtain ⟨module, next, more, moduleRead, moreRead, rfl⟩ := modules_eq_ok read
  rw [modulesAfterPipe_of_module pipe moduleRead, moreRead]
  rfl

theorem modulesAfterPipe_nil (elsewhere : cursor.token ≠ .pipe) :
    cursor.modulesAfterPipe = .ok ([], cursor) := by
  rw [modulesAfterPipe, dif_neg elsewhere]

theorem token_ne_pipe_of_modulesAfterPipe {found : List Module}
    (read : cursor.modulesAfterPipe = .ok (found, after)) : after.token ≠ .pipe := by
  fun_induction modulesAfterPipe cursor generalizing found after with
  | case1 => cases read
  | case2 => cases read
  | case3 => cases read
  | case4 cursor pipe proper module next inside shorter more end₁ tail induction =>
      cases read
      exact induction tail
  | case5 cursor elsewhere =>
      cases read
      exact elsewhere

theorem definitionName_eq {found : Option String} :
    cursor.definitionName = (found, after) ↔
      (∃ text, cursor.Opens text .equals ∧ found = some text ∧
        after = cursor.advance.advance) ∨
      ((∀ text, ¬cursor.Opens text .equals) ∧ found = none ∧ after = cursor) := by
  unfold definitionName Opens
  split
  · rename_i text here equals
    simp [here, equals, eq_comm]
  · rename_i unnamed
    constructor
    · rintro ⟨⟩
      exact .inr ⟨fun text opens => unnamed text opens.1 opens.2, rfl, rfl⟩
    · rintro (⟨text, opens, -⟩ | ⟨-, rfl, rfl⟩)
      · exact (unnamed text opens.1 opens.2).elim
      · rfl

theorem source_eq_ok {found : Option Channel} :
    cursor.source = .ok (found, after) ↔
      (cursor.channelKeyword? = none ∧ found = none ∧ after = cursor) ∨
      ∃ keyword channel next, cursor.channelKeyword? = some keyword ∧
        cursor.channel keyword = .ok (channel, next) ∧ next.token = .arrow ∧
          found = some channel ∧ after = next.advance := by
  unfold source
  cases cursor.channelKeyword? with
  | none => simp [eq_comm]
  | some keyword =>
      simp only [bind_eq_ok, Prod.exists, reduceCtorEq, false_and, false_or,
        Option.some.injEq]
      constructor
      · rintro ⟨channel, next, read, arrowRead⟩
        split at arrowRead
        · rename_i arrow
          cases arrowRead
          exact ⟨keyword, channel, next, rfl, read, arrow, rfl, rfl⟩
        · cases arrowRead
        · cases arrowRead
      · rintro ⟨_, channel, next, rfl, read, arrow, rfl, rfl⟩
        exact ⟨channel, next, read, by simp [arrow]⟩

theorem sink_eq_ok {found : Option Channel} :
    cursor.sink = .ok (found, after) ↔
      (cursor.token ≠ .arrow ∧ found = none ∧ after = cursor) ∨
      (cursor.token = .arrow ∧ ∃ keyword channel,
        cursor.advance.channelKeyword? = some keyword ∧
          cursor.advance.channel keyword = .ok (channel, after) ∧
            channel.kind.isTap = false ∧ found = some channel) := by
  unfold sink
  by_cases arrow : cursor.token = .arrow
  · simp only [arrow, if_true, ne_eq, not_true_eq_false, false_and, false_or, true_and]
    cases opening : cursor.advance.channelKeyword? with
    | none =>
        by_cases dangling : cursor.advance.token = .endOfInput <;> simp [dangling]
    | some keyword =>
        have proper : cursor.advance.token ≠ .endOfInput := by
          rw [(channelKeyword?_eq_some_iff.mp opening).1]
          nofun
        simp only [proper, if_false, bind_eq_ok, Prod.exists, Option.some.injEq]
        constructor
        · rintro ⟨channel, next, read, tapRead⟩
          split at tapRead
          · cases tapRead
          · rename_i noTap
            cases tapRead
            exact ⟨keyword, channel, rfl, read, by simpa using noTap, rfl⟩
        · rintro ⟨_, channel, rfl, read, noTap, rfl⟩
          exact ⟨channel, after, read, by simp [noTap]⟩
  · simp only [arrow, if_false, Except.ok.injEq, Prod.mk.injEq, ne_eq, not_false_eq_true,
      true_and, false_and, or_false, @eq_comm _ none, @eq_comm _ cursor]

theorem eq_of_definitionName_none (read : cursor.definitionName = (none, after)) :
    after = cursor := by
  rcases definitionName_eq.mp read with ⟨_, -, named, -⟩ | ⟨-, -, same⟩
  · cases named
  · exact same

theorem eq_of_source_none (read : cursor.source = .ok (none, after)) :
    after = cursor := by
  rcases source_eq_ok.mp read with ⟨-, -, same⟩ | ⟨_, _, _, -, -, -, written, -⟩
  · exact same
  · cases written

theorem eq_of_sink_none (read : cursor.sink = .ok (none, after)) : after = cursor := by
  rcases sink_eq_ok.mp read with ⟨-, -, same⟩ | ⟨-, _, _, -, -, -, written⟩
  · exact same
  · cases written

theorem eq_of_modulesAfterPipe_nil (read : cursor.modulesAfterPipe = .ok ([], after)) :
    after = cursor := by
  fun_induction modulesAfterPipe cursor with
  | case5 =>
      cases read
      rfl
  | _ => cases read

end Cursor

end Tapline
