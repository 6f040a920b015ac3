import Tapline.Proofs.Files.Replacement

/-!
# What a replacement changes

A replacement touches the file, its staging file and its backup, and nothing else.  If it
fails, only the staging file may have changed, with one exception: where the path leads to
a folder, that is moved to the backup, and then the path may not lead anywhere any more.
-/

namespace Tapline

namespace FileTree

variable {tree staged cleared result : FileTree} {entry : Entry}
  {location target : Location} {path old new : Path} {content : ByteArray}
  {name other : String}

private theorem staging_ne_name : name ++ ".tmp" ≠ name := by simp

private theorem backup_ne_name : name ++ ".bak" ≠ name := by simp

private theorem staging_ne_backup : name ++ ".tmp" ≠ name ++ ".bak" := by simp

/-- The endings of the staging file and the backup are equally long, so what holds of one
holds of the other. -/
theorem legible_backup (legible : Legible (path.withFileName (name ++ ".tmp"))) :
    Legible (path.withFileName (name ++ ".bak")) := by
  obtain ⟨noNul, short, -⟩ := legible
  obtain ⟨front, text⟩ := path.exists_text_withFileName
  refine ⟨?_, ?_, path.isEmpty_withFileName _⟩
  · rw [text] at noNul ⊢
    simpa using noNul
  · rw [text] at short ⊢
    simp only [String.utf8ByteSize_append] at short ⊢
    exact short

theorem locate_backup {staging : Location}
    (located : tree.locate (path.withFileName (name ++ ".tmp")) = .ok staging) :
    tree.locate (path.withFileName (name ++ ".bak")) =
      .ok (tree.above path ++ [name ++ ".bak"]) := by
  obtain ⟨⟨legible, short⟩, reached, -⟩ := locate_withFileName_eq_ok.mp located
  refine locate_withFileName_eq_ok.mpr ⟨⟨legible_backup legible, ?_⟩, reached, rfl⟩
  rw [String.utf8ByteSize_append] at short ⊢
  exact short

theorem endsInName_of_rename (renamed : tree.rename old new = .ok result) :
    old.endsInName = true ∧ new.endsInName = true := by
  obtain ⟨source, -, renamed⟩ := bind_eq_ok.mp renamed
  obtain ⟨target, -, renamed⟩ := bind_eq_ok.mp renamed
  split at renamed
  · cases renamed
  · rename_i ends
    simpa using ends

theorem rename_file {source : Location} (sourceLocated : tree.locate old = .ok source)
    (targetLocated : tree.locate new = .ok target)
    (ends : old.endsInName = true ∧ new.endsInName = true)
    (plain : old.asFolder = false ∧ new.asFolder = false)
    (found : tree.get? source = some (.file content))
    (apart : ¬ source <+: target ∧ ¬ target <+: source)
    (free : ¬ tree.HasFolder target) :
    tree.rename old new = .ok (tree.move source target (.file content)) := by
  have different : source ≠ target := fun same => apart.1 (same ▸ List.prefix_refl _)
  simp only [rename, sourceLocated, targetLocated, bind, Except.bind, ends, plain, found,
    Entry.isFolder, Bool.not_true, Bool.or_self, Bool.false_eq_true, if_false, different,
    List.isPrefixOf_iff_prefix, apart, Bool.and_false]
  cases there : tree.get? target with
  | none => rfl
  | some entry =>
      cases entry with
      | file => rfl
      | folder entries => exact (free ⟨entries, there⟩).elim

private theorem pathExists_of_rename (renamed : tree.rename old new = .ok result) :
    tree.pathExists old = true := by
  obtain ⟨source, target, entry, located, -, found, asFile, -⟩ := rename_eq_ok renamed
  have allowed : (old.asFolder && !entry.isFolder) = false := by
    cases folder : entry.isFolder with
    | true => simp
    | false => simp [(asFile folder).1]
  simp [pathExists, find, located, found, allowed, bind, Except.bind, Except.toOption]

theorem backUp_of_rename (renamed : tree.rename old new = .ok result) :
    tree.backUp old new = result := by
  simp [backUp, pathExists_of_rename renamed, renamed, Except.toOption]

theorem backUp_eq_or_rename (tree : FileTree) (old new : Path) :
    tree.backUp old new = tree ∨ tree.rename old new = .ok (tree.backUp old new) := by
  cases renamed : tree.rename old new with
  | error error => simp [backUp, renamed, Except.toOption]
  | ok result => exact .inr (congrArg Except.ok (backUp_of_rename renamed).symm)

theorem located_of_readBytes (read : tree.readBytes path = .ok content) :
    ∃ location, tree.locate path = .ok location ∧
      tree.get? location = some (.file content) ∧ path.asFolder = false := by
  obtain ⟨entry, found, content_eq⟩ := bind_eq_ok.mp read
  obtain ⟨location, located, found⟩ := bind_eq_ok.mp found
  refine ⟨location, located, ?_⟩
  split at found
  · cases found
  · rename_i other there
    split at found
    · cases found
    · rename_i allowed
      cases found
      cases entry with
      | folder => cases content_eq
      | file written =>
          cases content_eq
          exact ⟨there, by simpa [Entry.isFolder] using allowed⟩

/-- The staging file of a path has been written. -/
structure Staged (tree : FileTree) (path : Path) (name : String) (content : ByteArray)
    (staged : FileTree) : Prop where
  located : tree.locate (path.withFileName (name ++ ".tmp")) =
    .ok (tree.above path ++ [name ++ ".tmp"])
  noFolder : ¬ tree.HasFolder (tree.above path ++ [name ++ ".tmp"])
  above_eq : staged.above path = tree.above path
  stored : staged.get? (tree.above path ++ [name ++ ".tmp"]) = some (.file content)
  siblings : ∀ other, other ≠ name ++ ".tmp" →
    staged.get? (tree.above path ++ [other]) = tree.get? (tree.above path ++ [other])
  others : ∀ location, location ≠ tree.above path ++ [name ++ ".tmp"] →
    staged.contentAt? location = tree.contentAt? location
  locate : ∀ {path location}, tree.locate path = .ok location →
    staged.locate path = .ok location

theorem staged_of_writeFile
    (written : tree.writeFile (path.withFileName (name ++ ".tmp")) content = .ok staged) :
    tree.Staged path name content staged := by
  obtain ⟨location, located, noFolder, rfl⟩ := writeFile_eq_ok written
  obtain ⟨holder, rfl⟩ := locate_withFileName located
  have stored : (tree.put (tree.above path ++ [name ++ ".tmp"])
      (some (.file content))).get? (tree.above path ++ [name ++ ".tmp"]) =
        some (.file content) := Entry.get?_put_self holder
  refine ⟨located, noFolder, rfl, stored, fun other different => ?_, fun location => ?_,
    fun located => locate_put located noFolder⟩
  · exact get?_put_sibling different.symm
  · exact contentAt?_eq_of_plain noFolder (not_hasFolder_of_get? stored) contentAt?_put

theorem contentAt?_backUp (tree : FileTree) (named : path.fileName? = some name)
    (backup : String) (location : Location)
    (notFile : ¬ tree.above path ++ [name] <+: location)
    (notBackup : ¬ tree.above path ++ [backup] <+: location) :
    (tree.backUp path (path.withFileName backup)).contentAt? location =
      tree.contentAt? location := by
  rcases tree.backUp_cases named with same | ⟨entry, -, moved⟩
  · rw [same]
  · rw [moved]
    exact contentAt?_move notFile notBackup

/-- The location lies neither in the file nor in its backup, and it is not that of the
staging file. -/
structure IsElsewhere (tree : FileTree) (path : Path) (name : String)
    (location : Location) : Prop where
  notFile : ¬ tree.above path ++ [name] <+: location
  notStaging : location ≠ tree.above path ++ [name ++ ".tmp"]
  notBackup : ¬ tree.above path ++ [name ++ ".bak"] <+: location

/-- What a successful replacement leaves behind: the file with the new content, no staging
file, the old content in the backup if there was a file and no folder in the way, and
everything else as it was. -/
structure Replaced (tree : FileTree) (path : Path) (name : String) (content : ByteArray)
    (result : FileTree) : Prop where
  read : result.readBytes path = .ok content
  written : result.get? (tree.above path ++ [name]) = some (.file content)
  noStaging : result.get? (tree.above path ++ [name ++ ".tmp"]) = none
  kept : ∀ old, tree.readBytes path = .ok old →
    ¬ tree.HasFolder (tree.above path ++ [name ++ ".bak"]) →
      result.get? (tree.above path ++ [name ++ ".bak"]) = some (.file old)
  others : ∀ location, tree.IsElsewhere path name location →
    result.contentAt? location = tree.contentAt? location

theorem stored_backUp (named : path.fileName? = some name) (ends : path.endsInName = true)
    (staging : tree.Staged path name content staged) (old : ByteArray)
    (read : tree.readBytes path = .ok old)
    (noFolder : ¬ tree.HasFolder (tree.above path ++ [name ++ ".bak"])) :
    (staged.backUp path (path.withFileName (name ++ ".bak"))).get?
      (tree.above path ++ [name ++ ".bak"]) = some (.file old) := by
  obtain ⟨location, located, found, plain⟩ := located_of_readBytes read
  obtain ⟨-, rfl⟩ := locate_fileName named located
  have free : ¬ staged.HasFolder (tree.above path ++ [name ++ ".bak"]) := by
    rintro ⟨entries, folder⟩
    have same := staging.siblings _ staging_ne_backup.symm
    exact noFolder ⟨entries, same.symm.trans folder⟩
  have foundAgain := (staging.siblings name staging_ne_name.symm).trans found
  have renamed := rename_file (staging.locate located)
    (staging.locate (locate_backup staging.located)) ⟨ends, by simp⟩ ⟨plain, by simp⟩
    foundAgain ⟨not_within_sibling backup_ne_name.symm, not_within_sibling backup_ne_name⟩
    free
  have holder : staged.HasFolder (tree.above path) :=
    staging.above_eq ▸ (locate_fileName named (staging.locate located)).1
  rw [backUp_of_rename renamed]
  exact get?_move_self holder not_within_above

theorem taken_of_rename {staging : String} (named : path.fileName? = some name)
    (different : staging ≠ name)
    (stored : tree.get? (tree.above path ++ [staging]) = some (.file content))
    (renamed : tree.rename (path.withFileName staging) path = .ok result) :
    (tree.HasFolder (tree.above path) ∧ path.asFolder = false ∧
      tree.locate path = .ok (tree.above path ++ [name])) ∧
        result = tree.move (tree.above path ++ [staging]) (tree.above path ++ [name])
          (.file content) := by
  obtain ⟨source, target, entry, sourceLocated, targetLocated, found, asFile, outcome⟩ :=
    rename_eq_ok renamed
  obtain ⟨holder, rfl⟩ := locate_withFileName sourceLocated
  obtain ⟨-, rfl⟩ := locate_fileName named targetLocated
  obtain rfl : entry = .file content := Option.some.inj (found.symm.trans stored)
  have differ : tree.above path ++ [staging] ≠ tree.above path ++ [name] := by
    simpa using different
  obtain ⟨-, -, moved⟩ := outcome.resolve_left fun ⟨same, _⟩ => differ same
  exact ⟨⟨holder, (asFile rfl).2, targetLocated⟩, moved⟩

theorem replaced_of_rename (named : path.fileName? = some name)
    (staging : tree.Staged path name content staged)
    (renamed : (staged.backUp path (path.withFileName (name ++ ".bak"))).rename
      (path.withFileName (name ++ ".tmp")) path = .ok result) :
    tree.Replaced path name content result := by
  have sides := staged.backUp_frame named (name ++ ".bak")
  have frame := staged.contentAt?_backUp named (name ++ ".bak")
  have backs := stored_backUp named (endsInName_of_rename renamed).2 staging
  -- From here on, the tree with the backup is only known by what is where.
  generalize staged.backUp path (path.withFileName (name ++ ".bak")) = cleared
    at renamed sides frame backs
  rw [staging.above_eq] at sides frame
  obtain ⟨sameFolder, siblings⟩ := sides
  have stored : cleared.get? (cleared.above path ++ [name ++ ".tmp"]) =
      some (.file content) := by
    rw [sameFolder, siblings _ staging_ne_name staging_ne_backup, staging.stored]
  have read := readBytes_of_rename named stored renamed
  obtain ⟨⟨holder, -⟩, rfl⟩ := taken_of_rename named staging_ne_name stored renamed
  rw [sameFolder] at holder read ⊢
  have noStaging := get?_move_old (.file content) holder
    (staging_ne_name : name ++ ".tmp" ≠ name)
  refine ⟨read, get?_move_self holder not_within_above, noStaging, ?_, ?_⟩
  · intro old readOld noFolder
    rw [← backs old readOld noFolder]
    exact get?_move_sibling staging_ne_backup.symm backup_ne_name
  · intro location elsewhere
    refine contentAt?_eq_of_plain staging.noFolder (not_hasFolder_of_none noStaging) ?_
      elsewhere.notStaging
    intro notStaging
    calc
      _ = cleared.contentAt? location := contentAt?_move notStaging elsewhere.notFile
      _ = staged.contentAt? location :=
        frame location elsewhere.notFile elsewhere.notBackup
      _ = tree.contentAt? location := staging.others location elsewhere.notStaging

/-- The path leads to something that can be moved to the backup, and then it asks for a
folder or leads nowhere any more. -/
def Displaces (tree : FileTree) (path : Path) (content : ByteArray) : Prop :=
  ∃ name staged moved, path.fileName? = some name ∧
    tree.writeFile (path.withFileName (name ++ ".tmp")) content = .ok staged ∧
    staged.rename path (path.withFileName (name ++ ".bak")) = .ok moved ∧
    (path.asFolder = true ∨ ∀ location, moved.locate path ≠ .ok location)

/-- What is left behind then: the folder to which the path led is the backup, the new
content is in the staging file, and there is nothing in the place of the folder. -/
structure Displaced (tree : FileTree) (path : Path) (name : String) (content : ByteArray)
    (result : FileTree) : Prop where
  folder : tree.HasFolder (tree.above path ++ [name])
  missing : result.get? (tree.above path ++ [name]) = none
  moved : result.get? (tree.above path ++ [name ++ ".bak"]) =
    tree.get? (tree.above path ++ [name])
  staged : result.get? (tree.above path ++ [name ++ ".tmp"]) = some (.file content)
  others : ∀ location, tree.IsElsewhere path name location →
    result.contentAt? location = tree.contentAt? location

/-- What a path means is moved to its backup by a rename, and the way there stays. -/
theorem moved_of_rename {backup : String} (named : path.fileName? = some name)
    (different : name ≠ backup)
    (renamed : tree.rename path (path.withFileName backup) = .ok result) :
    ∃ entry, tree.HasFolder (tree.above path) ∧
      tree.locate path = .ok (tree.above path ++ [name]) ∧
      tree.get? (tree.above path ++ [name]) = some entry ∧
      (entry.isFolder = false → path.asFolder = false ∧
        ¬ tree.HasFolder (tree.above path ++ [backup])) ∧
      result =
        tree.move (tree.above path ++ [name]) (tree.above path ++ [backup]) entry := by
  obtain ⟨source, target, entry, sourceLocated, targetLocated, found, asFile, outcome⟩ :=
    rename_eq_ok renamed
  obtain ⟨holder, rfl⟩ := locate_fileName named sourceLocated
  obtain ⟨-, rfl⟩ := locate_withFileName targetLocated
  have differ : tree.above path ++ [name] ≠ tree.above path ++ [backup] := by
    simpa using different
  obtain ⟨-, free, moved⟩ := outcome.resolve_left fun ⟨same, _⟩ => differ same
  have plain (file : entry.isFolder = false) := (asFile file).1
  exact ⟨entry, holder, sourceLocated, found, fun file => ⟨plain file, free file⟩, moved⟩

private theorem above_of_rename {backup : String} (named : path.fileName? = some name)
    (different : name ≠ backup)
    (renamed : tree.rename path (path.withFileName backup) = .ok result) :
    result.above path = tree.above path := by
  obtain ⟨_, -, -, -, -, rfl⟩ := moved_of_rename named different renamed
  exact above_move

/-- Once something has been moved to the backup, the staging file takes its place, unless
the path was to a folder. -/
theorem displaces_of_error (named : path.fileName? = some name)
    (written : tree.writeFile (path.withFileName (name ++ ".tmp")) content = .ok staged)
    {error : FileError}
    (failed : (staged.backUp path (path.withFileName (name ++ ".bak"))).rename
      (path.withFileName (name ++ ".tmp")) path = .error error) :
    staged.backUp path (path.withFileName (name ++ ".bak")) = staged ∨
      tree.Displaces path content := by
  refine (staged.backUp_eq_or_rename path _).imp id fun renamed => ?_
  have staging := staged_of_writeFile written
  refine ⟨name, staged, _, named, written, renamed, ?_⟩
  have ends := (endsInName_of_rename renamed).1
  obtain ⟨entry, holder, -, -, -, moved⟩ :=
    moved_of_rename named backup_ne_name.symm renamed
  have sameFolder := above_of_rename named backup_ne_name.symm renamed
  rw [staging.above_eq] at holder moved sameFolder
  generalize staged.backUp path (path.withFileName (name ++ ".bak")) = cleared
    at failed moved sameFolder
  -- Otherwise the path still leads to where nothing is left, and the staging file fits.
  by_contra found
  obtain ⟨plain, location, located⟩ : path.asFolder = false ∧
      ∃ location, cleared.locate path = .ok location := by simpa using found
  obtain ⟨-, rfl⟩ := locate_fileName named located
  obtain ⟨⟨legible, short⟩, -⟩ := locate_withFileName_eq_ok.mp staging.located
  have stored : cleared.get? (tree.above path ++ [name ++ ".tmp"]) =
      some (.file content) := by
    rw [moved, ← staging.stored]
    exact get?_move_sibling staging_ne_name staging_ne_backup
  have missing : cleared.get? (tree.above path ++ [name]) = none :=
    moved ▸ get?_move_old _ holder backup_ne_name.symm
  rw [← sameFolder] at stored missing
  have succeeds := rename_file
    (locate_withFileName_of_locate named located legible short) located ⟨by simp, ends⟩
    ⟨by simp, plain⟩ stored
    ⟨not_within_sibling staging_ne_name, not_within_sibling staging_ne_name.symm⟩
    (not_hasFolder_of_none missing)
  cases failed.symm.trans succeeds

/-- Only a folder is displaced, since a file is found again where it was. -/
theorem displaced_of_rename (named : path.fileName? = some name)
    (staging : tree.Staged path name content staged)
    (renamed : staged.rename path (path.withFileName (name ++ ".bak")) = .ok cleared)
    (lost : path.asFolder = true ∨ ∀ location, cleared.locate path ≠ .ok location) :
    tree.Displaced path name content cleared := by
  obtain ⟨entry, holder, located, found, asFile, rfl⟩ :=
    moved_of_rename named backup_ne_name.symm renamed
  have isFolder : staged.HasFolder (staged.above path ++ [name]) := by
    cases entry with
    | folder entries => exact ⟨entries, found⟩
    | file old =>
        obtain ⟨plain, free⟩ := asFile rfl
        have again := locate_move (.file old) named located (not_hasFolder_of_get? found)
          free
        rcases lost with asFolder | nowhere
        · cases plain.symm.trans asFolder
        · exact (nowhere _ again).elim
  have stays := staging.siblings name staging_ne_name.symm
  rw [staging.above_eq] at holder found isFolder ⊢
  refine ⟨?_, get?_move_old _ holder backup_ne_name.symm, ?_, ?_, ?_⟩
  · obtain ⟨entries, folder⟩ := isFolder
    exact ⟨entries, stays.symm.trans folder⟩
  · rw [← stays, found]
    exact get?_move_self holder not_within_above
  · rw [← staging.stored]
    exact get?_move_sibling staging_ne_name staging_ne_backup
  · intro location elsewhere
    exact (contentAt?_move elsewhere.notFile elsewhere.notBackup).trans
      (staging.others location elsewhere.notStaging)

theorem exists_error_of_lost {staging : String} (named : path.fileName? = some name)
    (different : staging ≠ name)
    (stored : tree.get? (tree.above path ++ [staging]) = some (.file content))
    (lost : path.asFolder = true ∨ ∀ location, tree.locate path ≠ .ok location) :
    ∃ error, tree.rename (path.withFileName staging) path = .error error := by
  cases renamed : tree.rename (path.withFileName staging) path with
  | error error => exact ⟨error, rfl⟩
  | ok result =>
      obtain ⟨⟨-, plain, located⟩, -⟩ := taken_of_rename named different stored renamed
      rcases lost with asFolder | nowhere
      · cases plain.symm.trans asFolder
      · exact (nowhere _ located).elim

theorem replaceFile_of_named {text : String}
    (named : (Path.ofText text).fileName? = some name) :
    tree.replaceFile text content =
      match tree.writeFile ((Path.ofText text).withFileName (name ++ ".tmp")) content with
      | .error error => (.error (.file error), tree)
      | .ok staged =>
          let cleared := staged.backUp (Path.ofText text)
            ((Path.ofText text).withFileName (name ++ ".bak"))
          match cleared.rename ((Path.ofText text).withFileName (name ++ ".tmp"))
              (Path.ofText text) with
          | .error error => (.error (.file error), cleared)
          | .ok replaced => (.ok (), replaced) := by
  unfold replaceFile Path.staging? Path.backup? Path.sibling?
  dsimp only
  rw [named]
  rfl

/-- A replacement that fails changes the staging file at most, unless it displaces a
folder. -/
theorem contentAt?_of_error {text : String} {error : StorageError}
    (replaced : tree.replaceFile text content = (.error error, result))
    (stays : ¬ tree.Displaces (Path.ofText text) content)
    (elsewhere : ∀ name, (Path.ofText text).fileName? = some name →
      location ≠ tree.above (Path.ofText text) ++ [name ++ ".tmp"]) :
    result.contentAt? location = tree.contentAt? location := by
  cases named : (Path.ofText text).fileName? with
  | none =>
      simp only [replaceFile, Path.staging?, Path.sibling?, named, Option.map_none]
        at replaced
      cases replaced
      rfl
  | some name =>
      rw [replaceFile_of_named named] at replaced
      split at replaced
      · cases replaced
        rfl
      · rename_i staged written
        have staging := staged_of_writeFile written
        dsimp only at replaced
        split at replaced
        · rename_i failure failed
          cases replaced
          have same := (displaces_of_error named written failed).resolve_right stays
          rw [same]
          exact staging.others location (elsewhere name named)
        · cases replaced

/-- What becomes of the tree.  A replacement that succeeds leaves the new content in the
file and the old one in the backup.  One that fails changes nothing but the staging file,
except where a folder is displaced, and then it always fails. -/
theorem replaceFile_outcome (tree : FileTree) (text : String) (content : ByteArray) :
    let path := Path.ofText text
    (∀ result, tree.replaceFile text content = (.ok (), result) →
      ∃ name, path.fileName? = some name ∧ tree.Replaced path name content result) ∧
    (∀ error result, tree.replaceFile text content = (.error error, result) →
      ¬ tree.Displaces path content →
        ∀ location,
          (∀ name, path.fileName? = some name →
            location ≠ tree.above path ++ [name ++ ".tmp"]) →
              result.contentAt? location = tree.contentAt? location) ∧
    (tree.Displaces path content →
      ∃ name error result, path.fileName? = some name ∧
        tree.replaceFile text content = (.error (.file error), result) ∧
          tree.Displaced path name content result) := by
  intro path
  refine ⟨fun result replaced => ?_, fun error result replaced stays location elsewhere =>
    contentAt?_of_error replaced stays elsewhere, ?_⟩
  · obtain ⟨name, staged, named, written, renamed⟩ := replaceFile_eq_ok replaced
    exact ⟨name, named, replaced_of_rename named (staged_of_writeFile written) renamed⟩
  · rintro ⟨name, staged, cleared, named, written, renamed, lost⟩
    have staging := staged_of_writeFile written
    have displaced := displaced_of_rename named staging renamed lost
    have sameFolder := above_of_rename named backup_ne_name.symm renamed
    have stored := displaced.staged
    rw [← staging.above_eq, ← sameFolder] at stored
    obtain ⟨error, failed⟩ := exists_error_of_lost named staging_ne_name stored lost
    refine ⟨name, error, cleared, named, ?_, displaced⟩
    rw [replaceFile_of_named named, written]
    dsimp only
    rw [backUp_of_rename renamed, failed]

/-- A slash behind the name of a folder: the folder is moved to the backup, and then the
staging file may not take its place. -/
theorem replaceFile_loses_folder :
    let tree : FileTree := ⟨.folder [("d", .folder [("k", .file "k".toUTF8)])], []⟩
    let (outcome, result) := tree.replaceFile "d/" "new".toUTF8
    failure? outcome = some (.file .notFolder) ∧
      tree.contentAt? ["d"] = some none ∧ result.contentAt? ["d"] = none ∧
      tree.contentAt? ["d.bak"] = none ∧ result.contentAt? ["d.bak"] = some none := by
  decide +kernel

/-- A file with an old backup, and a folder with a slash behind its name. -/
theorem replaceFile_outcome_backup :
    let tree : FileTree := ⟨.folder [("d", .folder []), ("f", .file "one".toUTF8),
      ("f.bak", .file "zero".toUTF8)], []⟩
    let new := "two".toUTF8
    (∃ result, tree.replaceFile "f" new = (.ok (), result) ∧
      result.get? ["f.bak"] = some (.file "one".toUTF8) ∧
      result.contentAt? ["d"] = some none) ∧
    tree.Displaces (.ofText "d/") new ∧
    ∃ error result, tree.replaceFile "d/" new = (.error error, result) ∧
      result.get? ["d"] = none := by
  intro tree new
  have fine : (tree.replaceFile "f" new).1 = .ok () := eq_ok_of_toOption (by decide +kernel)
  have readOld : tree.readBytes (.ofText "f") = .ok "one".toUTF8 :=
    eq_ok_of_toOption (by decide +kernel)
  have inRoot : tree.above (.ofText "f") = [] := by decide +kernel
  have fName : (Path.ofText "f").fileName? = some "f" := by decide +kernel
  have inRootAgain : tree.above (.ofText "d/") = [] := by decide +kernel
  have dName : (Path.ofText "d/").fileName? = some "d" := by decide +kernel
  obtain ⟨name, named, done⟩ :=
    (replaceFile_outcome tree "f" new).1 _ (Prod.ext fine rfl)
  obtain rfl : name = "f" := Option.some.inj (named.symm.trans fName)
  have noFolder : ¬ tree.HasFolder (tree.above (.ofText "f") ++ ["f" ++ ".bak"]) := by
    rw [inRoot]
    have oldBackup : tree.get? ([] ++ ["f.bak"]) = some (.file "zero".toUTF8) := rfl
    exact not_hasFolder_of_get? oldBackup
  have kept := done.kept _ readOld noFolder
  have others := done.others ["d"] ⟨by rw [inRoot]; decide, by rw [inRoot]; decide,
    by rw [inRoot]; decide⟩
  rw [inRoot] at kept
  have displaces : tree.Displaces (.ofText "d/") new := by
    obtain ⟨moved, both⟩ : ∃ moved,
        (tree.writeFile ((Path.ofText "d/").withFileName ("d" ++ ".tmp")) new >>= fun staged =>
          staged.rename (.ofText "d/") ((Path.ofText "d/").withFileName ("d" ++ ".bak"))) =
        .ok moved :=
      exists_eq_ok (by decide +kernel)
    obtain ⟨staged, written, renamed⟩ := bind_eq_ok.mp both
    exact ⟨"d", staged, moved, dName, written, renamed, .inl (by decide +kernel)⟩
  refine ⟨⟨_, Prod.ext fine rfl, kept, others⟩, displaces, ?_⟩
  obtain ⟨other, error, result, named, failed, displaced⟩ :=
    (replaceFile_outcome tree "d/" new).2.2 displaces
  obtain rfl : other = "d" := Option.some.inj (named.symm.trans dName)
  have missing := displaced.missing
  rw [inRootAgain] at missing
  exact ⟨_, result, failed, missing⟩

end FileTree

end Tapline
