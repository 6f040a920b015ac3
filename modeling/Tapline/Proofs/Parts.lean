import Tapline.Proofs.Parallel
import Tapline.Proofs.Reading

/-!
# Where parts are read

Every part of a pipeline is read at some cursor that is reached from the start, and what
comes behind a module or a channel is a token at which a phrase may end.
-/

namespace Tapline

namespace Cursor

/-- The start can be brought forward to a cursor with the property. -/
def Reaches (start : Cursor) (property : Cursor → Prop) : Prop :=
  ∃ passed cursor, start.Consumes passed cursor ∧ property cursor

/-- The module is read at the cursor, and a phrase may end behind it. -/
def ReadsModule (module : Module) (cursor : Cursor) : Prop :=
  ∃ after, cursor.module = .ok (module, after) ∧ after.token.isBoundary = true

@[inherit_doc ReadsModule]
def ReadsChannel (channel : Channel) (cursor : Cursor) : Prop :=
  ∃ keyword after, cursor.channelKeyword? = some keyword ∧
    cursor.channel keyword = .ok (channel, after) ∧ after.token.isBoundary = true

/-- The argument is read at the cursor. -/
def ReadsArgument (argument : Argument) (cursor : Cursor) : Prop :=
  ∃ after, cursor.token = .flag argument.name ∧
    cursor.argument argument.name = .ok (argument, after)

variable {cursor after : Cursor}

theorem Reaches.behind {used : List Lexeme} {property : Cursor → Prop}
    (consumed : cursor.Consumes used after) (reaches : after.Reaches property) :
    cursor.Reaches property := by
  obtain ⟨passed, last, later, holds⟩ := reaches
  exact ⟨used ++ passed, last, consumed.trans later, holds⟩

private theorem isBoundary_of_modulesAfterPipe {found : List Module}
    (read : cursor.modulesAfterPipe = .ok (found, after))
    (boundary : after.token.isBoundary = true) : cursor.token.isBoundary = true := by
  by_cases pipe : cursor.token = .pipe
  · rw [pipe]
    rfl
  · rw [modulesAfterPipe_nil pipe] at read
    cases read
    exact boundary

private theorem reaches_of_modulesAfterPipe {found : List Module} (closed : cursor.Closed)
    (read : cursor.modulesAfterPipe = .ok (found, after))
    (boundary : after.token.isBoundary = true) :
    ∀ module ∈ found, cursor.Reaches (ReadsModule module) := by
  fun_induction modulesAfterPipe cursor generalizing found after with
  | case1 => cases read
  | case2 => cases read
  | case3 => cases read
  | case4 cursor pipe proper module next inner shorter more last tail induction =>
      cases read
      have sign := closed.consumes (by rw [pipe]; rfl)
      obtain ⟨used, consumed, -⟩ := (module_reads (sign.closed closed)).of_eq_ok inner
      have both := sign.trans consumed
      have ends := isBoundary_of_modulesAfterPipe tail boundary
      rw [List.forall_mem_cons]
      refine ⟨⟨_, _, sign, next, inner, ends⟩, fun other member => ?_⟩
      exact (induction (both.closed closed) tail boundary other member).behind both
  | case5 =>
      cases read
      simp

theorem reaches_of_modules {found : List Module} (closed : cursor.Closed)
    (read : cursor.modules = .ok (found, after))
    (boundary : after.token.isBoundary = true) :
    ∀ module ∈ found, cursor.Reaches (ReadsModule module) := by
  obtain ⟨module, next, more, moduleRead, moreRead, rfl⟩ := modules_eq_ok read
  obtain ⟨used, consumed, -⟩ := (module_reads closed).of_eq_ok moduleRead
  have ends := isBoundary_of_modulesAfterPipe moreRead boundary
  rw [List.forall_mem_cons]
  refine ⟨⟨_, _, .stay cursor, next, moduleRead, ends⟩, fun other member => ?_⟩
  exact (reaches_of_modulesAfterPipe (consumed.closed closed) moreRead boundary other
    member).behind consumed

theorem reaches_of_arguments {module : String} {seen : List String}
    {found : List Argument} (closed : cursor.Closed)
    (read : cursor.arguments module seen = .ok (found, after)) :
    ∀ argument ∈ found, cursor.Reaches (ReadsArgument argument) := by
  fun_induction arguments module seen cursor generalizing found after with
  | case1 => cases read
  | case2 => cases read
  | case3 => cases read
  | case4 seen cursor name flag argument next inner fresh shorter more last tail
      induction =>
      cases read
      obtain ⟨used, consumed, -⟩ := (argument_reads closed flag).of_eq_ok inner
      obtain ⟨-, -, value, -, -, written⟩ := argument_eq_ok.mp inner
      have named : argument.name = name := congrArg Argument.name written
      rw [List.forall_mem_cons]
      constructor
      · subst named
        exact ⟨_, _, .stay cursor, next, flag, inner⟩
      · intro other member
        exact (induction (consumed.closed closed) tail other member).behind consumed
  | case5 =>
      cases read
      simp

theorem reaches_of_module {found : Module} (closed : cursor.Closed)
    (read : cursor.module = .ok (found, after)) :
    ∀ argument ∈ found.arguments, cursor.Reaches (ReadsArgument argument) := by
  obtain ⟨label, cursor₁, name, cursor₂, arguments, labelRead, nameRead, argumentsRead,
    rfl⟩ := module_eq_ok read
  obtain ⟨used₁, consumed₁, -⟩ := (label_reads closed).of_eq_ok labelRead
  have closed₁ := consumed₁.closed closed
  obtain ⟨used₂, consumed₂, -⟩ := (moduleName_reads closed₁).of_eq_ok nameRead
  intro argument member
  exact ((reaches_of_arguments (consumed₂.closed closed₁) argumentsRead argument
    member).behind consumed₂).behind consumed₁

end Cursor

namespace Pipeline

/-- Every part of a pipeline is read somewhere, with a boundary behind it. -/
theorem reaches_of_ofCursor {start : Cursor} {found : Pipeline} (closed : start.Closed)
    (read : ofCursor start = .ok found) :
    (∀ module ∈ found.modules, start.Reaches (Cursor.ReadsModule module)) ∧
      ∀ channel ∈ found.channels, start.Reaches (Cursor.ReadsChannel channel) := by
  obtain ⟨name, cursor₁, source, cursor₂, modules, cursor₃, sink, cursor₄, nameRead,
    sourceRead, modulesRead, sinkRead, atEnd, -, rfl⟩ := ofCursor_eq_ok.mp read
  obtain ⟨used₁, consumed₁⟩ := start.definitionName_consumes closed
  rw [nameRead] at consumed₁
  have closed₁ := consumed₁.closed closed
  obtain ⟨used₂, consumed₂, -⟩ := (Cursor.source_reads closed₁).of_eq_ok sourceRead
  have closed₂ := consumed₂.closed closed₁
  obtain ⟨used₃, consumed₃, -⟩ := (Cursor.modules_reads closed₂).of_eq_ok modulesRead
  have closed₃ := consumed₃.closed closed₂
  have atSink := (consumed₁.trans consumed₂).trans consumed₃
  constructor
  · have boundary : cursor₃.token.isBoundary = true := by
      rcases Cursor.sink_eq_ok.mp sinkRead with ⟨-, -, rfl⟩ | ⟨arrow, -⟩
      · rw [atEnd]
        rfl
      · rw [arrow]
        rfl
    intro module member
    exact (Cursor.reaches_of_modules closed₂ modulesRead boundary module member).behind
      (consumed₁.trans consumed₂)
  · intro channel member
    rcases List.mem_append.mp member with inSource | inSink
    · rw [Option.mem_toList] at inSource
      rcases Cursor.source_eq_ok.mp sourceRead with
        ⟨-, rfl, -⟩ | ⟨keyword, _, next, opening, channelRead, arrow, rfl, -⟩
      · cases inSource
      · cases inSource
        exact ⟨used₁, cursor₁, consumed₁, keyword, next, opening, channelRead, arrow ▸ rfl⟩
    · rw [Option.mem_toList] at inSink
      rcases Cursor.sink_eq_ok.mp sinkRead with
        ⟨-, rfl, -⟩ | ⟨arrow, keyword, _, opening, channelRead, -, rfl⟩
      · cases inSink
      · cases inSink
        have sign := closed₃.consumes (by rw [arrow]; rfl)
        exact ⟨_, _, atSink.trans sign, keyword, cursor₄, opening, channelRead, atEnd ▸ rfl⟩

end Pipeline

end Tapline
