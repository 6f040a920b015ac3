import Tapline.Pipeline
import Tapline.Pipeline.Cursor
import Tapline.Token.Lexer

/-!
# From lexemes to pipelines

Each function reads one phrase of the grammar at a cursor and returns it with
the cursor behind it.  Reading stops at the first problem.  Every loop consumes
a lexeme per turn, which the `ahead_le` and `ahead_lt` lemmas record.
-/

namespace Tapline

/-- The text of a token that can stand between the colons of a channel name. -/
def Token.segment? : Token → Option String
  | .word text | .number text => some text
  | _ => none

namespace Cursor

/-- A segment of a channel name, or an index. -/
def segment (make : String → Problem) (cursor : Cursor) :
    Except Diagnostic (String × Cursor) :=
  match cursor.token.segment? with
  | some text => .ok (text, cursor.advance)
  | none => .error (cursor.unexpected make)

theorem segment_eq_ok {make : String → Problem} {cursor after : Cursor}
    {text : String} (read : cursor.segment make = .ok (text, after)) :
    cursor.token.segment? = some text ∧ after = cursor.advance := by
  unfold segment at read
  split at read
  · rename_i found
    simp only [Except.ok.injEq, Prod.mk.injEq] at read
    exact ⟨by rw [found, read.1], read.2.symm⟩
  · simp at read

theorem segment_ahead_lt {make : String → Problem} {cursor after : Cursor}
    {text : String} (separator : cursor.token.segment? = none)
    (read : cursor.advance.segment make = .ok (text, after)) :
    after.ahead.length < cursor.ahead.length := by
  obtain ⟨found, rfl⟩ := segment_eq_ok read
  have moved : cursor.advance.token ≠ cursor.token := by
    intro same
    rw [same, separator] at found
    simp at found
  exact Nat.lt_of_le_of_lt (advance_ahead_le _) (advance_ahead_lt moved)

/-- The segments that follow, each behind a separator. -/
def segments (separator : Token) (isSeparator : separator.segment? = none)
    (make : String → Problem) (cursor : Cursor) :
    Except Diagnostic (List String × Cursor) :=
  if here : cursor.token = separator then
    match read : cursor.advance.segment make with
    | .error diagnostic => .error diagnostic
    | .ok (text, after) =>
        have := segment_ahead_lt (by rw [here, isSeparator]) read
        match after.segments separator isSeparator make with
        | .error diagnostic => .error diagnostic
        | .ok (more, last) => .ok (text :: more, last)
  else
    .ok ([], cursor)
termination_by cursor.ahead.length

/-- The keyword under the cursor, if a colon follows it. -/
def channelKeyword? (cursor : Cursor) : Option ChannelKeyword :=
  match cursor.token, cursor.nextToken with
  | .word text, .colon => ChannelKeyword.ofWord? text
  | _, _ => none

/-- A channel whose keyword is under the cursor and whose colon comes next. -/
def channel (keyword : ChannelKeyword) (cursor : Cursor) :
    Except Diagnostic (Channel × Cursor) := do
  let (first, cursor₁) ←
    cursor.advance.advance.segment .expectedChannelSegment
  let (more, cursor₂) ← cursor₁.segments .colon rfl .expectedChannelSegment
  let kind := keyword.kindOf (first :: more)
  let (index, cursor₃) ← cursor₂.segments .dot rfl .expectedIndexSegment
  let span := cursor.span.merge cursor₃.before
  if !index.isEmpty && !kind.isTap then
    .error (cursor₂.failure .indexOnlyOnTaps)
  else if 1 < index.length then
    .error ⟨.multipleIndexes, span⟩
  else
    .ok (⟨kind, first :: more, index, span⟩, cursor₃)

/-- The label in front of a module, which may not be a channel keyword. -/
def label (cursor : Cursor) : Except Diagnostic (Option String × Cursor) :=
  match cursor.token, cursor.nextToken with
  | .word text, .colon =>
      match ChannelKeyword.ofWord? text with
      | some _ =>
          .error (cursor.failure (.expectedModuleName ("channel '" ++ text ++ ":'")))
      | none => .ok (some text, cursor.advance.advance)
  | _, _ => .ok (none, cursor)

def moduleName (cursor : Cursor) : Except Diagnostic (String × Cursor) :=
  match cursor.token with
  | .word text => .ok (text, cursor.advance)
  | _ => .error (cursor.unexpected .expectedModuleName)

/-- The argument whose flag, with the given name, is under the cursor. -/
def argument (name : String) (cursor : Cursor) :
    Except Diagnostic (Argument × Cursor) :=
  if name.isEmpty then
    .error (cursor.failure .expectedArgumentName)
  else
    let atEquals := cursor.advance
    if atEquals.token = .equals then
      let atValue := atEquals.advance
      match atValue.token with
      | .literal value =>
          let after := atValue.advance
          .ok (⟨name, value, cursor.span.merge after.before⟩, after)
      | _ => .error (atValue.unexpected fun _ => .expectedArgumentValue name)
    else
      .error (atEquals.unexpected fun _ => .expectedEquals name)

theorem argument_ahead_lt {name : String} {cursor after : Cursor}
    {found : Argument} (flag : cursor.token = .flag name)
    (read : cursor.argument name = .ok (found, after)) :
    after.ahead.length < cursor.ahead.length := by
  unfold argument at read
  split at read
  · simp at read
  · simp only at read
    split at read
    · rename_i equals
      split at read
      · simp only [Except.ok.injEq, Prod.mk.injEq] at read
        obtain ⟨_, rfl⟩ := read
        have moved : cursor.advance.token ≠ cursor.token := by
          rw [equals, flag]
          simp
        exact Nat.lt_of_le_of_lt
          (Nat.le_trans (advance_ahead_le _) (advance_ahead_le _))
          (advance_ahead_lt moved)
      · simp at read
    · simp at read

/-- The arguments of a module, none of which may have a name in `seen` or the
name of an earlier one. -/
def arguments (module : String) (seen : List String) (cursor : Cursor) :
    Except Diagnostic (List Argument × Cursor) :=
  match flag : cursor.token with
  | .flag name =>
      match read : cursor.argument name with
      | .error diagnostic => .error diagnostic
      | .ok (argument, after) =>
          if name ∈ seen then
            .error (cursor.failure (.duplicateArgument module name))
          else
            have := argument_ahead_lt flag read
            match after.arguments module (name :: seen) with
            | .error diagnostic => .error diagnostic
            | .ok (more, last) => .ok (argument :: more, last)
  | _ => .ok ([], cursor)
termination_by cursor.ahead.length

/-- A module with its label and arguments. -/
def module (cursor : Cursor) : Except Diagnostic (Module × Cursor) := do
  let (label, cursor₁) ← cursor.label
  let (name, cursor₂) ← cursor₁.moduleName
  let (arguments, cursor₃) ← cursor₂.arguments name []
  .ok (⟨name, label, arguments, cursor.span.merge cursor₃.before⟩, cursor₃)

theorem arguments_ahead_le {module : String} {seen : List String}
    {cursor after : Cursor} {found : List Argument}
    (read : cursor.arguments module seen = .ok (found, after)) :
    after.ahead.length ≤ cursor.ahead.length := by
  fun_induction arguments module seen cursor generalizing found after with
  | case1 => simp at read
  | case2 => simp at read
  | case3 => simp at read
  | case4 seen cursor name flag argument next inner fresh shorter more last tail
      induction =>
      simp only [Except.ok.injEq, Prod.mk.injEq] at read
      obtain ⟨_, rfl⟩ := read
      exact Nat.le_trans (induction tail) (Nat.le_of_lt shorter)
  | case5 =>
      simp only [Except.ok.injEq, Prod.mk.injEq] at read
      obtain ⟨_, rfl⟩ := read
      exact Nat.le_refl _

theorem label_ahead_le {cursor after : Cursor} {found : Option String}
    (read : cursor.label = .ok (found, after)) :
    after.ahead.length ≤ cursor.ahead.length := by
  unfold label at read
  split at read
  · split at read
    · simp at read
    · simp only [Except.ok.injEq, Prod.mk.injEq] at read
      obtain ⟨_, rfl⟩ := read
      exact Nat.le_trans (advance_ahead_le _) (advance_ahead_le _)
  · simp only [Except.ok.injEq, Prod.mk.injEq] at read
    obtain ⟨_, rfl⟩ := read
    exact Nat.le_refl _

theorem moduleName_ahead_le {cursor after : Cursor} {found : String}
    (read : cursor.moduleName = .ok (found, after)) :
    after.ahead.length ≤ cursor.ahead.length := by
  unfold moduleName at read
  split at read
  · simp only [Except.ok.injEq, Prod.mk.injEq] at read
    obtain ⟨_, rfl⟩ := read
    exact advance_ahead_le _
  · simp at read

/-- The readings a module is made of. -/
theorem module_eq_ok {cursor after : Cursor} {found : Module}
    (read : cursor.module = .ok (found, after)) :
    ∃ label cursor₁ name cursor₂ arguments,
      cursor.label = .ok (label, cursor₁) ∧
        cursor₁.moduleName = .ok (name, cursor₂) ∧
        cursor₂.arguments name [] = .ok (arguments, after) ∧
        found = ⟨name, label, arguments, cursor.span.merge after.before⟩ := by
  unfold module at read
  cases first : cursor.label with
  | error => simp [first, bind, Except.bind] at read
  | ok pair =>
      obtain ⟨label, cursor₁⟩ := pair
      cases second : cursor₁.moduleName with
      | error => simp [first, second, bind, Except.bind] at read
      | ok pair =>
          obtain ⟨name, cursor₂⟩ := pair
          cases third : cursor₂.arguments name [] with
          | error => simp [first, second, third, bind, Except.bind] at read
          | ok pair =>
              obtain ⟨arguments, cursor₃⟩ := pair
              simp only [first, second, third, bind, Except.bind,
                Except.ok.injEq, Prod.mk.injEq] at read
              obtain ⟨rfl, rfl⟩ := read
              exact ⟨label, cursor₁, name, cursor₂, arguments, rfl, second,
                third, rfl⟩

theorem module_ahead_le {cursor after : Cursor} {found : Module}
    (read : cursor.module = .ok (found, after)) :
    after.ahead.length ≤ cursor.ahead.length := by
  obtain ⟨_, _, _, _, _, first, second, third, _⟩ := module_eq_ok read
  exact Nat.le_trans (arguments_ahead_le third)
    (Nat.le_trans (moduleName_ahead_le second) (label_ahead_le first))

/-- The modules that follow, each behind a pipe. -/
def modulesAfterPipe (cursor : Cursor) : Except Diagnostic (List Module × Cursor) :=
  if pipe : cursor.token = .pipe then
    if dangling : cursor.advance.token = .endOfInput ∨
        cursor.advance.token = .pipe ∨ cursor.advance.token = .arrow then
      .error (cursor.failure .danglingPipe)
    else
      match read : cursor.advance.module with
      | .error diagnostic => .error diagnostic
      | .ok (module, after) =>
          have : after.ahead.length < cursor.ahead.length :=
            Nat.lt_of_le_of_lt (module_ahead_le read)
              (advance_ahead_lt fun same =>
                dangling (.inr (.inl (same.trans pipe))))
          match after.modulesAfterPipe with
          | .error diagnostic => .error diagnostic
          | .ok (more, last) => .ok (module :: more, last)
  else
    .ok ([], cursor)
termination_by cursor.ahead.length

def definitionName (cursor : Cursor) : Option String × Cursor :=
  match cursor.token, cursor.nextToken with
  | .word text, .equals => (some text, cursor.advance.advance)
  | _, _ => (none, cursor)

/-- The source channel and the arrow behind it. -/
def source (cursor : Cursor) : Except Diagnostic (Option Channel × Cursor) :=
  match cursor.channelKeyword? with
  | none => .ok (none, cursor)
  | some keyword => do
      let (channel, cursor₁) ← cursor.channel keyword
      match cursor₁.token with
      | .arrow => .ok (some channel, cursor₁.advance)
      | .endOfInput => .error (cursor₁.failure .emptyPipeline)
      | _ => .error (cursor₁.unexpected .unexpectedToken)

/-- One or more modules with pipes between them. -/
def modules (cursor : Cursor) : Except Diagnostic (List Module × Cursor) :=
  match cursor.token with
  | .endOfInput => .error (cursor.failure .emptyPipeline)
  | .pipe => .error (cursor.failure .danglingPipe)
  | _ => do
      let (first, cursor₁) ← cursor.module
      let (more, cursor₂) ← cursor₁.modulesAfterPipe
      .ok (first :: more, cursor₂)

/-- The arrow in front of the sink, and the sink, which may not be a tap. -/
def sink (cursor : Cursor) : Except Diagnostic (Option Channel × Cursor) :=
  if cursor.token = .arrow then
    let atChannel := cursor.advance
    if atChannel.token = .endOfInput then
      .error (cursor.failure .danglingArrow)
    else
      match atChannel.channelKeyword? with
      | none => .error (atChannel.unexpected .expectedChannel)
      | some keyword => do
          let (channel, cursor₁) ← atChannel.channel keyword
          if channel.kind.isTap then
            .error ⟨.tapAsSink, channel.span⟩
          else
            .ok (some channel, cursor₁)
  else
    .ok (none, cursor)

end Cursor

/-- The first module whose label is in `seen` or is that of an earlier one. -/
def firstRepeatedLabel? (seen : List String) : List Module → Option Module
  | [] => none
  | module :: modules =>
      if module.labelName ∈ seen then
        some module
      else
        firstRepeatedLabel? (module.labelName :: seen) modules

namespace Pipeline

/-- Reads a whole definition, which must end where the input does. -/
def ofCursor (start : Cursor) : Except Diagnostic Pipeline := do
  let (name, cursor₁) := start.definitionName
  let (source, cursor₂) ← cursor₁.source
  let (modules, cursor₃) ← cursor₂.modules
  let (sink, cursor₄) ← cursor₃.sink
  if cursor₄.token = .endOfInput then
    match firstRepeatedLabel? [] modules with
    | some module => .error ⟨.duplicateLabel module.labelName, module.span⟩
    | none =>
        .ok ⟨name, source, modules, sink, start.span.merge cursor₄.before⟩
  else
    .error (cursor₄.unexpected .unexpectedToken)

/-- Refuses channels, and then further modules: what is left is a job. -/
def asJob (pipeline : Pipeline) : Except Diagnostic Pipeline :=
  match pipeline.channels, pipeline.modules with
  | channel :: _, _ => .error ⟨.jobWithChannels, channel.span⟩
  | [], _ :: extra :: _ => .error ⟨.jobWithMultipleModules, extra.span⟩
  | [], _ => .ok pipeline

/-- The definition of the given kind that the lexemes spell. -/
def ofLexemes (kind : Kind) (lexemes : List Lexeme) : Except Diagnostic Pipeline := do
  let pipeline ← ofCursor (.ofLexemes lexemes)
  match kind with
  | .stream => .ok pipeline
  | .job => pipeline.asJob

/-- The definition of the given kind that the text spells. -/
def parse (kind : Kind) (text : String) : Except Diagnostic Pipeline :=
  ofLexemes kind (Lexeme.ofText text)

end Pipeline

end Tapline
