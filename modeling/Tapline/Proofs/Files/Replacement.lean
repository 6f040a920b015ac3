import Tapline.Proofs.Files.Walks

/-!
# Replaced files

A file that was replaced without an error is read back with the new content.
The staging file stays where it was written while the old file makes room,
even when that is a folder in which the path starts, and takes the place to
which the path leads.
-/

namespace Tapline

namespace FileTree

variable {tree result : FileTree} {location : Location} {entry : Entry}
  {path old new backup : Path} {content : ByteArray} {name : String}

theorem writeFile_eq_ok (written : tree.writeFile path content = .ok result) :
    ∃ location, tree.locate path = .ok location ∧ ¬ tree.HasFolder location ∧
      result = tree.put location (some (.file content)) := by
  obtain ⟨location, located, written⟩ := bind_eq_ok.mp written
  refine ⟨location, located, ?_⟩
  split at written
  · cases written
  · split at written
    · cases written
    · rename_i other
      refine ⟨fun ⟨entries, found⟩ => other entries found, ?_⟩
      exact (Except.ok.inj written).symm

/-- What a rename has done: nothing where both paths lead to the same place, and
otherwise a move between places of which neither lies in the other, which does not
put a file over a folder. -/
theorem rename_eq_ok (renamed : tree.rename old new = .ok result) :
    ∃ source target entry,
      tree.locate old = .ok source ∧ tree.locate new = .ok target ∧
      tree.get? source = some entry ∧
      (entry.isFolder = false → old.asFolder = false ∧ new.asFolder = false) ∧
      (source = target ∧ result = tree ∨
        (¬ source <+: target ∧ ¬ target <+: source) ∧
        (entry.isFolder = false → ¬ tree.HasFolder target) ∧
        result = tree.move source target entry) := by
  obtain ⟨source, sourceLocated, renamed⟩ := bind_eq_ok.mp renamed
  obtain ⟨target, targetLocated, renamed⟩ := bind_eq_ok.mp renamed
  split at renamed
  · cases renamed
  split at renamed
  · cases renamed
  rename_i entry found
  refine ⟨source, target, entry, sourceLocated, targetLocated, found, ?_⟩
  split at renamed
  · cases renamed
  rename_i plain
  refine ⟨fun file => by simpa [file] using plain, ?_⟩
  split at renamed
  · rename_i same
    exact .inl ⟨same, (Except.ok.inj renamed).symm⟩
  split at renamed
  · cases renamed
  rename_i notAbove
  split at renamed
  · cases renamed
  rename_i notBelow
  refine .inr ⟨⟨by simpa using notAbove, by simpa using notBelow⟩, ?_⟩
  cases entry with
  | file content =>
      split at renamed
      case h_4 free _ _ =>
        refine ⟨?_, (Except.ok.inj renamed).symm⟩
        exact fun _ ⟨entries, occupied⟩ => free content entries rfl occupied
      all_goals cases renamed
  | folder entries =>
      refine ⟨(nomatch ·), ?_⟩
      split at renamed
      case h_4 => exact (Except.ok.inj renamed).symm
      all_goals cases renamed

theorem backUp_cases (tree : FileTree) {backup : String}
    (named : path.fileName? = some name) :
    tree.backUp path (path.withFileName backup) = tree ∨
      ∃ entry, tree.get? (tree.above path ++ [name]) = some entry ∧
        tree.backUp path (path.withFileName backup) =
          tree.move (tree.above path ++ [name]) (tree.above path ++ [backup]) entry := by
  rw [backUp]
  split
  case isFalse => exact .inl rfl
  cases renamed : tree.rename path (path.withFileName backup) with
  | error error => exact .inl rfl
  | ok result =>
      obtain ⟨source, target, entry, sourceLocated, targetLocated, found, -, outcome⟩ :=
        rename_eq_ok renamed
      obtain ⟨-, rfl⟩ := locate_fileName named sourceLocated
      obtain ⟨-, rfl⟩ := locate_withFileName targetLocated
      rcases outcome with ⟨-, same⟩ | ⟨-, -, moved⟩
      · exact .inl same
      · exact .inr ⟨entry, found, moved⟩

theorem replaceFile_eq_ok {text : String}
    (replaced : tree.replaceFile text content = (.ok (), result)) :
    ∃ name staged,
      (Path.ofText text).fileName? = some name ∧
      tree.writeFile ((Path.ofText text).withFileName (name ++ ".tmp")) content =
        .ok staged ∧
      (staged.backUp (Path.ofText text)
          ((Path.ofText text).withFileName (name ++ ".bak"))).rename
        ((Path.ofText text).withFileName (name ++ ".tmp")) (Path.ofText text) =
        .ok result := by
  rw [replaceFile, Path.staging?, Path.backup?, Path.sibling?, Path.sibling?] at replaced
  cases named : (Path.ofText text).fileName? with
  | none => simp [named] at replaced
  | some name =>
      rw [named] at replaced
      simp only [Option.map_some] at replaced
      split at replaced
      · cases replaced
      · rename_i staged written
        refine ⟨name, staged, rfl, written, ?_⟩
        split at replaced
        · cases replaced
        · rename_i last renamed
          rw [renamed, (Prod.mk.inj replaced).2]

theorem readBytes_of_located (located : tree.locate path = .ok location)
    (found : tree.get? location = some (.file content))
    (plain : path.asFolder = false) : tree.readBytes path = .ok content := by
  simp [readBytes, find, located, found, plain, bind, Except.bind]

theorem locate_move {source target : Location} (entry : Entry)
    (named : path.fileName? = some name) (located : tree.locate path = .ok location)
    (plain : ¬ tree.HasFolder source) (free : ¬ tree.HasFolder target) :
    (tree.move source target entry).locate path = .ok location := by
  obtain ⟨legible, passable, reached⟩ := locate_eq_ok.mp located
  obtain ⟨between, behind, split, -, -⟩ := Path.exists_stepsAbove_append named
  have listed : PathStep.name name ∈ path.steps := by simp [split]
  have first : tree.HasFolder (tree.start path) := passable.start_hasFolder listed
  have start : (tree.move source target entry).start path = tree.start path :=
    start_move first plain
  have kept : ∀ location, tree.HasFolder location →
      (tree.move source target entry).HasFolder location := fun location holder =>
    HasFolder.move holder (holder.not_within plain) (holder.not_within free)
  exact locate_eq_ok.mpr ⟨legible, start ▸ passable.mono kept, start ▸ reached⟩

theorem readBytes_of_rename {staging : String}
    (named : path.fileName? = some name)
    (found : tree.get? (tree.above path ++ [staging]) = some (.file content))
    (renamed : tree.rename (path.withFileName staging) path = .ok result) :
    result.readBytes path = .ok content := by
  obtain ⟨source, target, entry, sourceLocated, targetLocated, moved, asFile, outcome⟩ :=
    rename_eq_ok renamed
  obtain ⟨-, rfl⟩ := locate_withFileName sourceLocated
  obtain rfl : entry = .file content := by simpa [found] using moved.symm
  have plain : path.asFolder = false := (asFile rfl).2
  rcases outcome with ⟨same, rfl⟩ | ⟨-, free, rfl⟩
  · exact readBytes_of_located targetLocated (same ▸ found) plain
  · have noFolder : ¬ tree.HasFolder (tree.above path ++ [staging]) := by
      rintro ⟨entries, folder⟩
      simp [get?] at found
      simp [found] at folder
    refine readBytes_of_located
      (locate_move _ named targetLocated noFolder (free rfl)) ?_ plain
    obtain ⟨holder, rfl⟩ := locate_fileName named targetLocated
    exact get?_move_self holder not_within_above

/-- The backup leaves the files under other names in the folder as they are, and
the way there as it is. -/
theorem backUp_frame (tree : FileTree) (named : path.fileName? = some name)
    (backup : String) :
    let cleared := tree.backUp path (path.withFileName backup)
    cleared.above path = tree.above path ∧
      ∀ other, other ≠ name → other ≠ backup →
        cleared.get? (tree.above path ++ [other]) =
          tree.get? (tree.above path ++ [other]) := by
  intro cleared
  rcases tree.backUp_cases named with same | ⟨entry, -, moved⟩
  · exact ⟨congrArg (FileTree.above · path) same, fun other _ _ =>
      congrArg (get? · (tree.above path ++ [other])) same⟩
  · refine ⟨(congrArg (FileTree.above · path) moved).trans above_move, ?_⟩
    intro other notName notBackup
    calc
      cleared.get? (tree.above path ++ [other]) =
          (tree.move (tree.above path ++ [name]) (tree.above path ++ [backup])
            entry).get? (tree.above path ++ [other]) :=
        congrArg (get? · (tree.above path ++ [other])) moved
      _ = tree.get? (tree.above path ++ [other]) :=
        get?_move_sibling notName notBackup

/-- What a successful replacement wrote is read back, byte for byte. -/
theorem readBytes_of_replaceFile {text : String}
    (replaced : tree.replaceFile text content = (.ok (), result)) :
    result.readBytes (Path.ofText text) = .ok content := by
  obtain ⟨name, staged, named, written, renamed⟩ := replaceFile_eq_ok replaced
  obtain ⟨location, located, -, rfl⟩ := writeFile_eq_ok written
  obtain ⟨holder, rfl⟩ := locate_withFileName located
  -- From here on, the tree with the staging file is only known by what is where.
  generalize stagedEq : tree.put _ _ = staged at renamed
  have sameFolder : staged.above (Path.ofText text) = tree.above (Path.ofText text) := by
    rw [← stagedEq]
    rfl
  have stored : staged.get? (tree.above (Path.ofText text) ++ [name ++ ".tmp"]) =
      some (.file content) := by
    rw [← stagedEq]
    exact Entry.get?_put_self holder
  have longer : name ++ ".tmp" ≠ name := by simp
  have notBackup : name ++ ".tmp" ≠ name ++ ".bak" := by simp
  obtain ⟨stays, others⟩ := staged.backUp_frame named _
  refine readBytes_of_rename named ?_ renamed
  rw [stays, others _ longer notBackup, sameFolder, stored]

theorem readText_of_readBytes {text : String}
    (found : tree.readBytes path = .ok text.toUTF8) : tree.readText path = .ok text := by
  have decoded : String.fromUTF8? text.toUTF8 = some text := dif_pos text.isValidUTF8
  refine bind_eq_ok.mpr ⟨text.toUTF8, found, ?_⟩
  rw [decoded]

theorem readText_of_replaceFile {text written : String}
    (replaced : tree.replaceFile text written.toUTF8 = (.ok (), result)) :
    result.readText (Path.ofText text) = .ok written :=
  readText_of_readBytes (readBytes_of_replaceFile replaced)

end FileTree

end Tapline
