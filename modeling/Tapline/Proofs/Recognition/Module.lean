import Tapline.Proofs.Recognition.Channel

/-!
# Reading modules

The readers of labels, arguments and modules against their productions.  A
module may be followed by a pipe, an arrow or the end, and that is what makes
its opening tell it apart from a name and from a channel.
-/

namespace Tapline

namespace Cursor

theorem label_sound {cursor after : Cursor} {tokens : List Token}
    {found : Option String} (faces : cursor.Faces tokens)
    (read : cursor.label = .ok (found, after)) :
    Passes (Grammar.Optional Grammar.Label) tokens found after := by
  rcases label_eq_ok.mp read with ⟨text, opens, free, rfl, rfl⟩ | ⟨-, rfl, rfl⟩
  · obtain ⟨rest, rfl⟩ := (faces.opens_iff (by simp)).mp opens
    exact ⟨[.word text, .colon], rest, rfl,
      .some (.intro (ChannelKeyword.ofWord?_eq_none.mp free)), faces.advance.advance⟩
  · exact ⟨[], tokens, rfl, .none, faces⟩

theorem label_complete {used rest : List Token} {name : String}
    {found : Option String} (phrase : Grammar.Optional Grammar.Label used found)
    (stops : rest.head?.getD .endOfInput ≠ .colon) {cursor : Cursor}
    (faces : cursor.Faces (used ++ .word name :: rest)) :
    ∃ after, cursor.label = .ok (found, after) ∧
      after.Faces (.word name :: rest) := by
  cases phrase with
  | none =>
      refine ⟨cursor, label_eq_ok.mpr (.inr ⟨?_, rfl, rfl⟩), faces⟩
      rintro text ⟨-, next⟩
      rw [faces.nextToken] at next
      exact stops next
  | some phrase =>
      cases phrase with
      | intro free =>
          refine ⟨cursor.advance.advance, label_eq_ok.mpr (.inl ⟨_, ?_,
            ChannelKeyword.ofWord?_eq_none.mpr free, rfl, rfl⟩), faces.advance.advance⟩
          exact (faces.opens_iff (by simp)).mpr ⟨_, rfl⟩

theorem moduleName_sound {cursor after : Cursor} {tokens : List Token}
    {name : String} (faces : cursor.Faces tokens)
    (read : cursor.moduleName = .ok (name, after)) :
    Passes Grammar.Word tokens name after := by
  unfold moduleName at read
  split at read
  · rename_i text here
    simp only [Except.ok.injEq, Prod.mk.injEq] at read
    obtain ⟨rfl, rfl⟩ := read
    obtain ⟨rest, rfl, facesRest⟩ := faces.eq_cons here (by simp)
    exact ⟨[.word text], rest, rfl, .intro text, facesRest⟩
  · simp at read

theorem moduleName_complete {cursor : Cursor} {rest : List Token} {name : String}
    (faces : cursor.Faces (.word name :: rest)) :
    ∃ after, cursor.moduleName = .ok (name, after) ∧ after.Faces rest := by
  have here := faces.token_cons
  exact ⟨cursor.advance, by simp [moduleName, here], faces.advance⟩

theorem argument_sound {name : String} {cursor after : Cursor}
    {tokens : List Token} {found : Argument} (faces : cursor.Faces tokens)
    (here : cursor.token = .flag name)
    (read : cursor.argument name = .ok (found, after)) :
    Passes Grammar.Argument tokens found.entry after ∧ found.name = name := by
  obtain ⟨named, equals, value, literal, rfl, rfl⟩ := argument_eq_ok.mp read
  obtain ⟨_, rfl, facesEquals⟩ := faces.eq_cons here (by simp)
  obtain ⟨_, rfl, facesValue⟩ := facesEquals.eq_cons equals (by simp)
  obtain ⟨rest, rfl, facesRest⟩ := facesValue.eq_cons literal (by simp)
  exact ⟨⟨[.flag name, .equals, .literal value], rest, rfl, .intro value named,
    facesRest⟩, rfl⟩

theorem argument_complete {used rest : List Token} {entry : String × String}
    (phrase : Grammar.Argument used entry) {cursor : Cursor}
    (faces : cursor.Faces (used ++ rest)) :
    cursor.token = .flag entry.1 ∧
      ∃ found after, cursor.argument entry.1 = .ok (found, after) ∧
        found.entry = entry ∧ after.Faces rest := by
  cases phrase with
  | intro value named =>
      have facesEquals := faces.advance
      have facesValue := facesEquals.advance
      exact ⟨faces.token_cons, _, _,
        argument_eq_ok.mpr ⟨named, facesEquals.token_cons, value,
          facesValue.token_cons, rfl, rfl⟩,
        rfl, facesValue.advance⟩

theorem arguments_sound {module : String} {seen : List String}
    {cursor after : Cursor} {tokens : List Token} {found : List Argument}
    (faces : cursor.Faces tokens)
    (read : cursor.arguments module seen = .ok (found, after)) :
    Passes (Grammar.Star Grammar.Argument) tokens (found.map Argument.entry)
        after ∧
      (found.map Argument.name).Nodup ∧
      ∀ argument ∈ found, argument.name ∉ seen := by
  fun_induction arguments module seen cursor
    generalizing tokens found after with
  | case1 => simp at read
  | case2 => simp at read
  | case3 => simp at read
  | case4 seen cursor name flag argument next inner fresh shorter more last tail
      induction =>
      simp only [Except.ok.injEq, Prod.mk.injEq] at read
      obtain ⟨rfl, rfl⟩ := read
      obtain ⟨⟨first, middle, rfl, firstPhrase, facesMiddle⟩, rfl⟩ :=
        argument_sound faces flag inner
      obtain ⟨⟨others, rest, rfl, morePhrase, facesRest⟩, distinct, unseen⟩ :=
        induction facesMiddle tail
      refine ⟨⟨first ++ others, rest, by simp, .cons firstPhrase morePhrase,
        facesRest⟩, ?_, ?_⟩
      · simp only [List.map_cons, List.nodup_cons, List.mem_map, not_exists,
          not_and]
        refine ⟨?_, distinct⟩
        intro other member same
        exact unseen other member (by simp [same])
      · intro other member
        rcases List.mem_cons.mp member with rfl | later
        · exact fresh
        · exact fun old => unseen other later (List.mem_cons_of_mem _ old)
  | case5 =>
      simp only [Except.ok.injEq, Prod.mk.injEq] at read
      obtain ⟨rfl, rfl⟩ := read
      exact ⟨⟨[], tokens, rfl, .nil, faces⟩, by simp, by simp⟩

theorem arguments_complete {used rest : List Token}
    {entries : List (String × String)} (module : String)
    (phrase : Grammar.Star Grammar.Argument used entries)
    (distinct : (entries.map Prod.fst).Nodup)
    (stops : ∀ name, rest.head?.getD .endOfInput ≠ .flag name)
    (seen : List String) (unseen : ∀ entry ∈ entries, entry.1 ∉ seen)
    {cursor : Cursor} (faces : cursor.Faces (used ++ rest)) :
    ∃ found after, cursor.arguments module seen = .ok (found, after) ∧
      found.map Argument.entry = entries ∧ after.Faces rest := by
  induction phrase generalizing cursor seen with
  | nil =>
      refine ⟨[], cursor, arguments_nil ?_, rfl, faces⟩
      exact fun name flag => stops name (faces.token.symm.trans flag)
  | @cons firstTokens moreTokens entry entries firstPhrase morePhrase induction =>
      rw [List.append_assoc] at faces
      obtain ⟨here, argument, next, inner, same, facesNext⟩ :=
        argument_complete firstPhrase faces
      simp only [List.map_cons, List.nodup_cons, List.mem_map, not_exists,
        not_and] at distinct
      have fresh : entry.1 ∉ seen := unseen entry (by simp)
      have unseenLater : ∀ other ∈ entries, other.1 ∉ entry.1 :: seen := by
        intro other member old
        rcases List.mem_cons.mp old with repeated | older
        · exact distinct.1 other member repeated
        · exact unseen other (List.mem_cons_of_mem _ member) older
      obtain ⟨more, last, tail, sameLater, facesLast⟩ :=
        induction distinct.2 _ unseenLater facesNext
      exact ⟨argument :: more, last, arguments_cons here inner fresh tail,
        by simp [same, sameLater], facesLast⟩

end Cursor

namespace Grammar

/-- What may follow a module: a pipe, an arrow, or the end. -/
def Boundary (rest : List Token) : Prop :=
  ∀ token ∈ rest.head?, token = .pipe ∨ token = .arrow

private theorem Boundary.ne {rest : List Token} (boundary : Boundary rest) {token : Token}
    (notPipe : token ≠ .pipe) (notArrow : token ≠ .arrow)
    (notEnd : token ≠ .endOfInput) :
    rest.head?.getD .endOfInput ≠ token := by
  cases rest with
  | nil => exact Ne.symm notEnd
  | cons head _ =>
      rcases boundary head rfl with rfl | rfl
      · exact Ne.symm notPipe
      · exact Ne.symm notArrow

theorem boundary_optional_arrow {phrase : List Token → α → Prop}
    {tokens : List Token} {value : Option α}
    (optional : Optional (Behind .arrow phrase) tokens value) :
    Boundary tokens := by
  cases optional with
  | none => simp [Boundary]
  | some behind =>
      cases behind
      simp [Boundary]

theorem boundary_star_pipe {phrase : List Token → α → Prop}
    {tokens rest : List Token} {values : List α}
    (star : Star (Behind .pipe phrase) tokens values) (boundary : Boundary rest) :
    Boundary (tokens ++ rest) := by
  cases star with
  | nil => exact boundary
  | cons behind _ =>
      cases behind
      simp [Boundary]

/-- A module begins with a word.  The word is neither the name of the
definition nor the keyword of a channel. -/
theorem Module.opening {used rest : List Token} {module : Module.Meaning}
    (phrase : Module used module) (boundary : Boundary rest) :
    ∃ text more, used ++ rest = .word text :: more ∧
      more.head?.getD .endOfInput ≠ .equals ∧
      (more.head?.getD .endOfInput = .colon →
        ∀ keyword : ChannelKeyword, text ≠ keyword.word) := by
  cases phrase with
  | intro name labelPhrase argumentPhrase _ =>
      cases labelPhrase with
      | some labelled =>
          cases labelled with
          | intro free => exact ⟨_, _, rfl, by simp, fun _ => free⟩
      | none =>
          refine ⟨name, _, rfl, ?_, ?_⟩
          all_goals
            cases argumentPhrase with
            | nil => simp [boundary.ne]
            | cons argument _ =>
                cases argument
                simp

end Grammar

namespace Cursor

theorem module_sound {cursor after : Cursor} {tokens : List Token}
    {found : Module} (faces : cursor.Faces tokens)
    (read : cursor.module = .ok (found, after)) :
    Passes Grammar.Module tokens found.meaning after := by
  obtain ⟨label, cursor₁, name, cursor₂, arguments, labelRead, nameRead,
    argumentsRead, rfl⟩ := module_eq_ok read
  obtain ⟨labelTokens, _, rfl, labelPhrase, faces₁⟩ :=
    label_sound faces labelRead
  obtain ⟨nameTokens, _, rfl, namePhrase, faces₂⟩ :=
    moduleName_sound faces₁ nameRead
  obtain ⟨⟨argumentTokens, rest, rfl, argumentPhrase, faces₃⟩, distinct, -⟩ :=
    arguments_sound faces₂ argumentsRead
  cases namePhrase
  have distinctEntries :
      ((arguments.map Argument.entry).map Prod.fst).Nodup := by
    simpa [Argument.entry, Function.comp_def] using distinct
  exact ⟨labelTokens ++ .word name :: argumentTokens, rest, by simp,
    .intro name labelPhrase argumentPhrase distinctEntries, faces₃⟩

theorem module_complete {used rest : List Token} {meaning : Module.Meaning}
    (phrase : Grammar.Module used meaning) (boundary : Grammar.Boundary rest)
    {cursor : Cursor} (faces : cursor.Faces (used ++ rest)) :
    ∃ found after, cursor.module = .ok (found, after) ∧
      found.meaning = meaning ∧ after.Faces rest := by
  cases phrase with
  | @intro label name arguments labelTokens argumentTokens labelPhrase
      argumentPhrase distinct =>
      simp only [List.append_assoc, List.cons_append] at faces
      have unlabelled :
          (argumentTokens ++ rest).head?.getD .endOfInput ≠ .colon := by
        cases argumentPhrase with
        | nil => exact boundary.ne (by simp) (by simp) (by simp)
        | cons argument _ =>
            cases argument
            simp
      obtain ⟨cursor₁, labelRead, faces₁⟩ :=
        label_complete labelPhrase unlabelled faces
      obtain ⟨cursor₂, nameRead, faces₂⟩ := moduleName_complete faces₁
      obtain ⟨found, after, argumentsRead, same, facesAfter⟩ :=
        arguments_complete name argumentPhrase distinct
          (fun _ => boundary.ne (by simp) (by simp) (by simp)) [] (by simp) faces₂
      refine ⟨⟨name, label, found, cursor.span.merge after.before⟩, after, ?_, ?_,
        facesAfter⟩
      · simp only [module, labelRead, nameRead, argumentsRead, bind, Except.bind]
      · simp [Module.meaning, same]

theorem modulesAfterPipe_sound {cursor after : Cursor} {tokens : List Token}
    {found : List Module} (faces : cursor.Faces tokens)
    (read : cursor.modulesAfterPipe = .ok (found, after)) :
    Passes (Grammar.Star (Grammar.Behind .pipe Grammar.Module)) tokens
      (found.map Module.meaning) after := by
  fun_induction modulesAfterPipe cursor generalizing tokens found after with
  | case1 => simp at read
  | case2 => simp at read
  | case3 => simp at read
  | case4 cursor pipe proper module next inner shorter more last tail
      induction =>
      simp only [Except.ok.injEq, Prod.mk.injEq] at read
      obtain ⟨rfl, rfl⟩ := read
      obtain ⟨later, rfl, facesLater⟩ := faces.eq_cons pipe (by simp)
      obtain ⟨first, middle, rfl, firstPhrase, facesMiddle⟩ :=
        module_sound facesLater inner
      obtain ⟨others, rest, rfl, morePhrase, facesRest⟩ :=
        induction facesMiddle tail
      exact ⟨(.pipe :: first) ++ others, rest, by simp,
        .cons (.intro firstPhrase) morePhrase, facesRest⟩
  | case5 =>
      simp only [Except.ok.injEq, Prod.mk.injEq] at read
      obtain ⟨rfl, rfl⟩ := read
      exact ⟨[], tokens, rfl, .nil, faces⟩

theorem modulesAfterPipe_complete {used rest : List Token}
    {meanings : List Module.Meaning}
    (phrase : Grammar.Star (Grammar.Behind .pipe Grammar.Module) used meanings)
    (boundary : Grammar.Boundary rest)
    (stops : rest.head?.getD .endOfInput ≠ .pipe) {cursor : Cursor}
    (faces : cursor.Faces (used ++ rest)) :
    ∃ found after, cursor.modulesAfterPipe = .ok (found, after) ∧
      found.map Module.meaning = meanings ∧ after.Faces rest := by
  induction phrase generalizing cursor with
  | nil =>
      have elsewhere : cursor.token ≠ .pipe := by
        rw [faces.token]
        exact stops
      exact ⟨[], cursor, modulesAfterPipe_nil elsewhere, rfl, faces⟩
  | cons behind morePhrase induction =>
      obtain ⟨firstPhrase⟩ := behind
      have here : cursor.token = .pipe := faces.token_cons
      have facesFirst := faces.advance
      simp only [List.append_eq, List.append_assoc] at facesFirst
      have boundaryLater := Grammar.boundary_star_pipe morePhrase boundary
      obtain ⟨module, next, inner, same, facesNext⟩ :=
        module_complete firstPhrase boundaryLater facesFirst
      obtain ⟨more, last, tail, sameLater, facesLast⟩ := induction facesNext
      refine ⟨module :: more, last, ?_, by simp [same, sameLater], facesLast⟩
      rw [modulesAfterPipe_of_module here inner, tail]
      rfl

theorem modules_sound {cursor after : Cursor} {tokens : List Token}
    {found : List Module} (faces : cursor.Faces tokens)
    (read : cursor.modules = .ok (found, after)) :
    ∃ first more firstTokens moreTokens rest,
      tokens = firstTokens ++ moreTokens ++ rest ∧ found = first :: more ∧
      Grammar.Module firstTokens first.meaning ∧
      Grammar.Star (Grammar.Behind .pipe Grammar.Module) moreTokens
        (more.map Module.meaning) ∧
      after.Faces rest := by
  obtain ⟨first, cursor₁, more, firstRead, moreRead, rfl⟩ := modules_eq_ok read
  obtain ⟨firstTokens, _, rfl, firstPhrase, faces₁⟩ := module_sound faces firstRead
  obtain ⟨moreTokens, rest, rfl, morePhrase, faces₂⟩ :=
    modulesAfterPipe_sound faces₁ moreRead
  exact ⟨first, more, firstTokens, moreTokens, rest, by simp, rfl, firstPhrase,
    morePhrase, faces₂⟩

theorem modules_complete {firstTokens moreTokens rest : List Token}
    {first : Module.Meaning} {more : List Module.Meaning}
    (firstPhrase : Grammar.Module firstTokens first)
    (morePhrase :
      Grammar.Star (Grammar.Behind .pipe Grammar.Module) moreTokens more)
    (boundary : Grammar.Boundary rest)
    (stops : rest.head?.getD .endOfInput ≠ .pipe) {cursor : Cursor}
    (faces : cursor.Faces (firstTokens ++ (moreTokens ++ rest))) :
    ∃ found after, cursor.modules = .ok (found, after) ∧
      found.map Module.meaning = first :: more ∧ after.Faces rest := by
  have boundaryLater := Grammar.boundary_star_pipe morePhrase boundary
  obtain ⟨module, cursor₁, firstRead, same, faces₁⟩ :=
    module_complete firstPhrase boundaryLater faces
  obtain ⟨modules, after, moreRead, sameLater, facesAfter⟩ :=
    modulesAfterPipe_complete morePhrase boundary stops faces₁
  refine ⟨module :: modules, after, ?_, by simp [same, sameLater], facesAfter⟩
  rw [modules_of_module firstRead, moreRead]
  rfl

end Cursor

end Tapline
