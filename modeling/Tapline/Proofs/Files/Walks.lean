import Tapline.Proofs.Files.Places
import Tapline.Proofs.Outcome
import Tapline.Storage

/-!
# Where paths lead

The location to which a path leads is the same in every tree that it can be
followed in from the same start: the tree only decides whether it can be
followed.  The staging file and the backup of a file lie in the folder in which
the file itself is, even if that folder was reached by a detour.
-/

namespace Tapline

namespace PathStep

variable {step : PathStep} {steps : List PathStep} {location : Location}

/-- Where a step leads, if it can be taken. -/
def next (location : Location) : PathStep → Location
  | .name text => location ++ [text]
  | .parent => location.dropLast
  | .current | .empty => location

private theorem foldl_next_of_idle (idle : ∀ step ∈ steps, step.isIdle) :
    steps.foldl next location = location := by
  induction steps with
  | nil => rfl
  | cons step steps ih =>
      obtain ⟨first, rest⟩ := List.forall_mem_cons.mp idle
      have stays : next location step = location := by
        cases step with
        | name text => cases first
        | parent => cases first
        | current => rfl
        | empty => rfl
      rw [List.foldl_cons, stays, ih rest]

private theorem exists_dropIdle_append (steps : List PathStep) :
    ∃ idle, steps = dropIdle steps ++ idle ∧ ∀ step ∈ idle, step.isIdle := by
  induction steps with
  | nil => exact ⟨[], rfl, by simp⟩
  | cons step steps ih =>
      obtain ⟨idle, split, idles⟩ := ih
      rw [dropIdle]
      split
      case h_1 dropped =>
        rw [dropped, List.nil_append] at split
        subst split
        by_cases counts : step.isIdle
        · exact ⟨step :: steps, by simp [counts], by simpa [counts] using idles⟩
        · exact ⟨steps, by simp [counts], idles⟩
      case h_2 => exact ⟨idle, by rw [List.cons_append, ← split], idles⟩

end PathStep

namespace Path

variable {path : Path} {name : String}

/-- Behind the steps that count for the meaning of a path come idle ones. -/
theorem exists_plainSteps_append (path : Path) :
    ∃ idle, path.steps = path.plainSteps ++ idle ∧ ∀ step ∈ idle, step.isIdle := by
  rw [plainSteps]
  split
  case h_1 steps _ relative =>
    obtain ⟨idle, split, idles⟩ := PathStep.exists_dropIdle_append steps
    exact ⟨idle, by rw [relative, List.cons_append, ← split], idles⟩
  case h_2 => exact PathStep.exists_dropIdle_append _

/-- A path to a file leads to the folder above, then to the name, with idle steps
between and behind. -/
theorem exists_stepsAbove_append (named : path.fileName? = some name) :
    ∃ between behind,
      path.steps = path.stepsAbove ++ between ++ .name name :: behind ∧
        (∀ step ∈ between, step.isIdle) ∧ ∀ step ∈ behind, step.isIdle := by
  obtain ⟨behind, split, behindIdle⟩ := path.exists_plainSteps_append
  obtain ⟨between, above, betweenIdle⟩ :=
    exists_plainSteps_append ⟨path.absolute, path.plainSteps.dropLast⟩
  obtain ⟨last, isLast, isName⟩ := Option.bind_eq_some_iff.mp named
  obtain rfl : last = .name name := by
    cases last <;> simp_all [PathStep.name?]
  refine ⟨between, behind, ?_, betweenIdle, behindIdle⟩
  have whole : path.plainSteps.dropLast ++ [.name name] = path.plainSteps :=
    List.dropLast_append_getLast? _ isLast
  calc
    path.steps = path.plainSteps.dropLast ++ [.name name] ++ behind := by
      rw [whole, split]
    _ = path.stepsAbove ++ between ++ [.name name] ++ behind := by
      rw [stepsAbove, ← above]
    _ = path.stepsAbove ++ between ++ .name name :: behind := by simp

@[simp] theorem endsInName_withFileName (path : Path) (name : String) :
    (path.withFileName name).endsInName = true := by
  simp [endsInName, withFileName, List.filter_append, PathStep.name?]

@[simp] theorem asFolder_withFileName (path : Path) (name : String) :
    (path.withFileName name).asFolder = false := by
  simp [asFolder, withFileName]

theorem exists_text_withFileName (path : Path) :
    ∃ front, ∀ name, (path.withFileName name).text = front ++ name := by
  let first := if path.absolute then String.singleton separator else ""
  let above := path.stepsAbove.map PathStep.text
  have text (name : String) : (path.withFileName name).text =
      first ++ (String.singleton separator).intercalate (above ++ [name]) := by
    rw [Path.text, withFileName, List.map_append]
    rfl
  by_cases direct : above = []
  · refine ⟨first, fun name => ?_⟩
    rw [text, direct, List.nil_append, String.intercalate_singleton]
  · refine ⟨first ++ ((String.singleton separator).intercalate above ++
      String.singleton separator), fun name => ?_⟩
    rw [text, String.intercalate_append_of_ne_nil direct (List.cons_ne_nil name []),
      String.intercalate_singleton]
    simp only [String.append_assoc]

theorem isEmpty_withFileName (path : Path) (name : String) :
    (path.withFileName name).isEmpty = false := by
  simp [isEmpty, withFileName]

end Path

namespace FileTree

variable {tree other : FileTree} {first location reached : Location}
  {step : PathStep} {steps more : List PathStep} {path : Path} {name : String}

/-- A step can be taken at a location. -/
def Allows (tree : FileTree) (location : Location) (step : PathStep) : Prop :=
  (step ≠ .empty → tree.HasFolder location) ∧
    ∀ name, step = .name name → name.utf8ByteSize ≤ longestName

/-- Steps can be taken one after the other. -/
def Passable (tree : FileTree) : Location → List PathStep → Prop
  | _, [] => True
  | location, step :: steps =>
        tree.Allows location step ∧ tree.Passable (step.next location) steps

/-- The location at which a path begins. -/
def start (tree : FileTree) (path : Path) : Location :=
  if path.absolute then [] else tree.here

/-- The location of the folder that holds what a path means. -/
def above (tree : FileTree) (path : Path) : Location :=
  path.stepsAbove.foldl PathStep.next (tree.start path)

private theorem requireFolder_bind {Result : Type} {next : Except FileError Result}
    {result : Result} :
    (tree.requireFolder location >>= fun _ => next) = .ok result ↔
      tree.HasFolder location ∧ next = .ok result := by
  rw [bind_eq_ok, ← requireFolder_eq_ok]
  exact ⟨fun ⟨(), folder, reached⟩ => ⟨folder, reached⟩, fun ⟨folder, reached⟩ =>
    ⟨(), folder, reached⟩⟩

private theorem follow_eq_ok :
    tree.follow location step = .ok reached ↔
      tree.Allows location step ∧ step.next location = reached := by
  cases step with
  | empty => simp [follow, Allows, PathStep.next]
  | current => simp [follow, Allows, PathStep.next, requireFolder_bind]
  | parent => simp [follow, Allows, PathStep.next, requireFolder_bind]
  | name name =>
      rw [follow, requireFolder_bind]
      simp only [Allows, PathStep.next, PathStep.name.injEq, forall_eq', ne_eq, reduceCtorEq,
        not_false_eq_true, forall_const, and_assoc, and_congr_right_iff]
      intro _
      split
      case isTrue long => simp [Nat.not_le.mpr long]
      case isFalse short => simp [Nat.not_lt.mp short]

private theorem foldlM_follow_eq_ok :
    steps.foldlM tree.follow first = .ok reached ↔
      tree.Passable first steps ∧ steps.foldl PathStep.next first = reached := by
  induction steps generalizing first with
  | nil => simp [Passable, pure, Except.pure]
  | cons step steps ih =>
      simp [Passable, List.foldlM_cons, bind_eq_ok, follow_eq_ok, ih, and_assoc]

theorem passable_append :
    tree.Passable first (steps ++ more) ↔
      tree.Passable first steps ∧
        tree.Passable (steps.foldl PathStep.next first) more := by
  induction steps generalizing first with
  | nil => simp [Passable]
  | cons step steps ih => simp [Passable, ih, and_assoc]

theorem Passable.mono (passable : tree.Passable first steps)
    (kept : ∀ location, tree.HasFolder location → other.HasFolder location) :
    other.Passable first steps := by
  induction steps generalizing first with
  | nil => trivial
  | cons step steps ih =>
      obtain ⟨⟨holder, short⟩, rest⟩ := passable
      exact ⟨⟨fun counts => kept _ (holder counts), short⟩, ih rest⟩

theorem Passable.start_hasFolder (passable : tree.Passable first steps)
    (named : .name name ∈ steps) : tree.HasFolder first := by
  induction steps generalizing first with
  | nil => simp at named
  | cons step steps ih =>
      obtain ⟨⟨holder, -⟩, rest⟩ := passable
      by_cases counts : step = .empty
      · subst counts
        exact ih rest (by simpa using named)
      · exact holder counts

theorem locate_eq_ok :
    tree.locate path = .ok location ↔
      (path.text.toList.contains '\x00' = false ∧
        path.text.utf8ByteSize ≤ longestPath ∧ path.isEmpty = false) ∧
      tree.Passable (tree.start path) path.steps ∧
      path.steps.foldl PathStep.next (tree.start path) = location := by
  rw [← foldlM_follow_eq_ok, locate, start]
  split
  · simp_all
  · split
    · rename_i long
      simp [Nat.not_le.mpr long]
    · split <;> simp_all

/-- A path to a file leads to its name in the folder above. -/
theorem locate_fileName (named : path.fileName? = some name)
    (located : tree.locate path = .ok location) :
    tree.HasFolder (tree.above path) ∧ location = tree.above path ++ [name] := by
  obtain ⟨-, passable, rfl⟩ := locate_eq_ok.mp located
  obtain ⟨between, behind, split, betweenIdle, behindIdle⟩ :=
    Path.exists_stepsAbove_append named
  have folder : (path.stepsAbove ++ between).foldl PathStep.next (tree.start path) =
      tree.above path := by
    rw [List.foldl_append, PathStep.foldl_next_of_idle betweenIdle, above]
  rw [split, passable_append, folder] at passable
  obtain ⟨-, ⟨holder, -⟩, -⟩ := passable
  refine ⟨holder (by simp), ?_⟩
  rw [split, List.foldl_append, folder, List.foldl_cons,
    PathStep.foldl_next_of_idle behindIdle, PathStep.next]

theorem locate_withFileName
    (located : tree.locate (path.withFileName name) = .ok location) :
    tree.HasFolder (tree.above path) ∧ location = tree.above path ++ [name] := by
  obtain ⟨-, passable, rfl⟩ := locate_eq_ok.mp located
  rw [Path.withFileName, passable_append] at passable
  obtain ⟨-, ⟨holder, -⟩, -⟩ := passable
  refine ⟨holder (by simp), ?_⟩
  rw [Path.withFileName, List.foldl_append]
  rfl

/-- The text of a path can be handed to the file system. -/
def Legible (path : Path) : Prop :=
  path.text.toList.contains '\x00' = false ∧ path.text.utf8ByteSize ≤ longestPath ∧
    path.isEmpty = false

/-- Whether a path to a name can be followed depends on the folder, which has to be
reached, and on the name, which may not be too long. -/
theorem locate_withFileName_eq_ok :
    tree.locate (path.withFileName name) = .ok location ↔
      (Legible (path.withFileName name) ∧ name.utf8ByteSize ≤ longestName) ∧
        (tree.Passable (tree.start path) path.stepsAbove ∧
          tree.HasFolder (tree.above path)) ∧
        tree.above path ++ [name] = location := by
  have start : tree.start (path.withFileName name) = tree.start path := rfl
  have steps : (path.withFileName name).steps = path.stepsAbove ++ [.name name] := rfl
  rw [locate_eq_ok, start, steps, passable_append, List.foldl_append, Legible]
  simp only [Passable, Allows, above, PathStep.next, List.foldl_cons, List.foldl_nil]
  constructor
  · rintro ⟨legible, ⟨passable, ⟨holder, short⟩, -⟩, reached⟩
    exact ⟨⟨legible, short name rfl⟩, ⟨passable, holder nofun⟩, reached⟩
  · rintro ⟨⟨legible, short⟩, ⟨passable, holder⟩, reached⟩
    refine ⟨legible, ⟨passable, ⟨fun _ => holder, ?_⟩, trivial⟩, reached⟩
    rintro _ ⟨⟩
    exact short

/-- Where a path leads to the file, a path to another name leads next to it. -/
theorem locate_withFileName_of_locate {second : String}
    (named : path.fileName? = some name) (located : tree.locate path = .ok location)
    (legible : Legible (path.withFileName second))
    (short : second.utf8ByteSize ≤ longestName) :
    tree.locate (path.withFileName second) = .ok (tree.above path ++ [second]) := by
  obtain ⟨-, passable, -⟩ := locate_eq_ok.mp located
  obtain ⟨between, behind, split, -, -⟩ := Path.exists_stepsAbove_append named
  rw [split, List.append_assoc, passable_append] at passable
  exact locate_withFileName_eq_ok.mpr ⟨⟨legible, short⟩,
    ⟨passable.1, (locate_fileName named located).1⟩, rfl⟩

/-- A new file stops nobody who could go on where it is. -/
theorem locate_put {target : Location} {content : ByteArray}
    (located : tree.locate path = .ok location) (noFolder : ¬ tree.HasFolder target) :
    (tree.put target (some (.file content))).locate path = .ok location := by
  obtain ⟨legible, passable, reached⟩ := locate_eq_ok.mp located
  refine locate_eq_ok.mpr ⟨legible, passable.mono fun other holder => ?_, reached⟩
  exact Entry.HasFolder.put holder (holder.not_within noFolder)

/-- A location before and after what is under one name in a folder has moved to
another name there. -/
inductive MovesWith (above : Location) (old new : String) :
    Location → Location → Prop where
  | apart (location : Location) : MovesWith above old new location location
  | inside (below : Location) :
      MovesWith above old new (above ++ old :: below) (above ++ new :: below)

variable {above after : Location} {old new : String} {entry : Entry}

/-- A step from inside leads further in, or out into the folder in which the
move took place. -/
theorem MovesWith.next (moves : MovesWith above old new location after) :
    MovesWith above old new (step.next location) (step.next after) := by
  cases moves with
  | apart => exact .apart _
  | inside below =>
      cases step with
      | name text => simpa [PathStep.next] using inside (below ++ [text])
      | current => exact inside below
      | empty => exact inside below
      | parent =>
          cases below with
          | nil => simpa [PathStep.next] using apart above
          | cons first below =>
              simpa [PathStep.next, List.dropLast_append_of_ne_nil] using
                inside (List.dropLast (first :: below))

theorem MovesWith.foldl_next (moves : MovesWith above old new location after) :
    MovesWith above old new (steps.foldl PathStep.next location)
      (steps.foldl PathStep.next after) := by
  induction steps generalizing location after with
  | nil => exact moves
  | cons step steps ih => exact ih moves.next

theorem MovesWith.eq_of_above (moves : MovesWith above old new location after)
    (same : location = above) : after = location := by
  cases moves with
  | apart => rfl
  | inside below => simp at same

private theorem movesWith_relocate :
    MovesWith above old new location
      (relocate (above ++ [old]) (above ++ [new]) location) := by
  rw [relocate]
  split
  case isTrue within =>
    obtain ⟨below, rfl⟩ := List.isPrefixOf_iff_prefix.mp within
    simpa using MovesWith.inside below
  case isFalse => exact .apart location

/-- A path into a folder leads there as before after a move within the folder,
even if the path starts in what has moved. -/
theorem above_move :
    (tree.move (tree.above path ++ [old]) (tree.above path ++ [new]) entry).above path =
      tree.above path := by
  have start : MovesWith (tree.above path) old new (tree.start path)
      ((tree.move (tree.above path ++ [old]) (tree.above path ++ [new]) entry).start
        path) := by
    rw [FileTree.start, FileTree.start]
    split
    · exact .apart []
    · exact movesWith_relocate
  exact start.foldl_next.eq_of_above rfl

theorem start_move {source target : Location} (holder : tree.HasFolder (tree.start path))
    (plain : ¬ tree.HasFolder source) :
    (tree.move source target entry).start path = tree.start path := by
  rw [FileTree.start] at holder ⊢
  rw [FileTree.start]
  split
  · rfl
  · have outside : ¬ source <+: tree.here := by
      apply Entry.HasFolder.not_within _ plain
      simp_all [FileTree.HasFolder]
    simp [move, relocate, List.isPrefixOf_iff_prefix, outside]

end FileTree

end Tapline
