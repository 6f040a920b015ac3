import Mathlib.Data.List.Basic
import Tapline.FileTree

/-!
# What is where

What is found at a location after something has been put at another one: a
change reaches what is at its location and below it, and nothing else except
that the folders above list something else.  A folder stays a folder unless it
is itself replaced or lies in what is replaced.
-/

namespace Tapline

namespace Entry

variable {entry : Entry} {new : Option Entry}
  {above target location : Location} {name other : String}
  {entries : List (String × Entry)}

/-- The content of a file; what a folder lists does not count. -/
def content? : Entry → Option ByteArray
  | .file content => some content
  | .folder _ => none

/-- There is a folder at a location below an entry. -/
def HasFolder (entry : Entry) (location : Location) : Prop :=
  ∃ entries, entry.get? location = some (.folder entries)

@[simp]
theorem get?_nil : entry.get? [] = some entry := by
  cases entry <;> rfl

@[simp]
theorem get?_folder :
    (folder entries).get? (name :: location) =
      (entries.lookup name).bind (get? location) := rfl

@[simp]
theorem get?_file {content : ByteArray} :
    (file content).get? (name :: location) = none := rfl

/-- A location is reached by way of the locations above it. -/
theorem get?_append :
    entry.get? (above ++ location) = (entry.get? above).bind (get? location) := by
  induction above generalizing entry with
  | nil => simp
  | cons name above ih =>
      cases entry with
      | file content => rfl
      | folder entries => cases found : entries.lookup name <;> simp [found, ih]

/-- Below a file there is nothing, so that no folder lies in one. -/
theorem HasFolder.not_within (holder : entry.HasFolder location)
    (plain : ¬ entry.HasFolder target) : ¬ target <+: location := by
  rintro ⟨below, rfl⟩
  obtain ⟨entries, found⟩ := holder
  rw [get?_append, Option.bind_eq_some_iff] at found
  obtain ⟨at_target, reached, found⟩ := found
  cases at_target with
  | folder inner => exact plain ⟨inner, reached⟩
  | file content => cases below <;> simp at found

private theorem lookup_filter_self : (entries.filter (·.1 ≠ name)).lookup name = none := by
  rw [List.lookup_eq_none_iff]
  rintro ⟨key, value⟩ listed
  have different : key ≠ name := by simpa using (List.mem_filter.mp listed).2
  simpa using different.symm

private theorem lookup_filter_ne (different : other ≠ name) :
    (entries.filter (·.1 ≠ name)).lookup other = entries.lookup other := by
  induction entries with
  | nil => rfl
  | cons first entries ih =>
      obtain ⟨key, value⟩ := first
      by_cases same : key = name
      · have skipped : (other == key) = false := by simpa [same] using different
        rw [List.filter_cons_of_neg (by simp [same]), ih, List.lookup_cons, skipped]
      · rw [List.filter_cons_of_pos (by simp [same]), List.lookup_cons, List.lookup_cons, ih]

private theorem lookup_putEntry_self : (putEntry name new entries).lookup name = new := by
  rw [putEntry, List.lookup_append, lookup_filter_self]
  cases new <;> simp

private theorem lookup_putEntry_ne (different : other ≠ name) :
    (putEntry name new entries).lookup other = entries.lookup other := by
  rw [putEntry, List.lookup_append, lookup_filter_ne different]
  have skipped : (other == name) = false := beq_eq_false_iff_ne.mpr different
  cases new <;> simp [List.lookup_cons, skipped]

/-- A change inside a folder changes what the folder lists under one name. -/
theorem exists_put_folder {rest : Location} :
    ∃ changed, (folder entries).put new (name :: rest) = folder changed ∧
      (changed.lookup name =
        if rest = [] then new else (entries.lookup name).map (put new rest)) ∧
      ∀ other, other ≠ name → changed.lookup other = entries.lookup other := by
  cases rest with
  | nil =>
      exact ⟨putEntry name new entries, rfl, lookup_putEntry_self, fun _ => lookup_putEntry_ne⟩
  | cons next rest =>
      cases listed : entries.lookup name with
      | none => exact ⟨entries, by simp [put, listed], listed, fun _ _ => rfl⟩
      | some inner =>
          refine ⟨putEntry name (some (inner.put new (next :: rest))) entries, ?_,
            lookup_putEntry_self, fun _ => lookup_putEntry_ne⟩
          simp [put, listed]

theorem get?_put_self (holder : entry.HasFolder above) :
    (entry.put new (above ++ [name])).get? (above ++ [name]) = new := by
  obtain ⟨entries, found⟩ := holder
  induction above generalizing entry with
  | nil =>
      obtain rfl : entry = folder entries := by simpa using found
      obtain ⟨changed, put, listed, -⟩ := exists_put_folder
      rw [List.nil_append, put, get?_folder, listed]
      cases new <;> simp
  | cons step above ih =>
      cases entry with
      | file content => simp at found
      | folder outer =>
          obtain ⟨inner, within, found⟩ := Option.bind_eq_some_iff.mp found
          obtain ⟨changed, put, listed, -⟩ := exists_put_folder
          rw [List.cons_append, put, get?_folder, listed, within]
          simpa using ih found

/-- A change leaves everything alone that is not at its location or below,
except that it may change what folders above its location list. -/
theorem get?_put_outside (outside : ¬ target <+: location) :
    (entry.put new target).get? location = entry.get? location ∨
      location <+: target ∧ entry.HasFolder location ∧
        (entry.put new target).HasFolder location := by
  induction target generalizing entry location with
  | nil => exact absurd (List.nil_prefix) outside
  | cons name rest ih =>
      cases entry with
      | file content => exact .inl (by cases rest <;> rfl)
      | folder entries =>
          -- Only what the folder lists under the first name of the target can change.
          obtain ⟨changed, put, listed, others⟩ := exists_put_folder
          rw [put]
          cases location with
          | nil => exact .inr ⟨List.nil_prefix, ⟨entries, rfl⟩, changed, rfl⟩
          | cons step location =>
              by_cases same : step = name
              · subst same
                have below : ¬ rest <+: location := fun inside =>
                  outside (List.cons_prefix_cons.mpr ⟨rfl, inside⟩)
                have further : rest ≠ [] := fun last => below (last ▸ List.nil_prefix)
                rw [if_neg further] at listed
                cases within : entries.lookup step with
                | none => exact .inl (by simp [listed, within])
                | some inner =>
                    simpa [HasFolder, listed, within, List.cons_prefix_cons] using ih below
              · exact .inl (by simp [others step same])

/-- A folder is still one after a change, unless the change was to it or to
something around it. -/
theorem HasFolder.put (holder : entry.HasFolder location)
    (outside : ¬ target <+: location) :
    (entry.put new target).HasFolder location := by
  have found : (entry.put new target).get? location = entry.get? location ∨ _ :=
    get?_put_outside outside
  rcases found with same | ⟨-, -, holder⟩
  · exact holder.imp fun _ found => same.trans found
  · exact holder

private theorem get?_put_of_apart (outside : ¬ target <+: location)
    (notAbove : ¬ location <+: target) :
    (entry.put new target).get? location = entry.get? location :=
  (get?_put_outside outside).resolve_right fun ⟨above, _⟩ => notAbove above

end Entry

namespace FileTree

variable {tree : FileTree} {entry : Entry} {above old new location : Location}
  {name other : String}

/-- There is a folder at a location. -/
def HasFolder (tree : FileTree) (location : Location) : Prop :=
  tree.root.HasFolder location

/-- Whether there is a file, with what content, or a folder at a location. -/
def contentAt? (tree : FileTree) (location : Location) : Option (Option ByteArray) :=
  (tree.get? location).map Entry.content?

theorem requireFolder_eq_ok :
    tree.requireFolder location = .ok () ↔ tree.HasFolder location := by
  rw [requireFolder, HasFolder, Entry.HasFolder, get?]
  cases tree.root.get? location with
  | none => simp
  | some entry => cases entry <;> simp

theorem not_within_sibling (different : name ≠ other) :
    ¬ above ++ [name] <+: above ++ [other] := by
  simpa [List.prefix_append_right_inj] using different

theorem not_within_above : ¬ above ++ [name] <+: above := by
  intro inside
  exact absurd inside.length_le (by simp)

theorem HasFolder.move (holder : tree.HasFolder location)
    (notOld : ¬ old <+: location) (notNew : ¬ new <+: location) :
    (tree.move old new entry).HasFolder location :=
  (Entry.HasFolder.put holder notOld).put notNew

theorem get?_move_self (holder : tree.HasFolder above) (notOld : ¬ old <+: above) :
    (tree.move old (above ++ [name]) entry).get? (above ++ [name]) = some entry :=
  Entry.get?_put_self (Entry.HasFolder.put holder notOld)

theorem get?_put_sibling {new : Option Entry} (different : name ≠ other) :
    (tree.put (above ++ [name]) new).get? (above ++ [other]) =
      tree.get? (above ++ [other]) :=
  Entry.get?_put_of_apart (not_within_sibling different)
    (not_within_sibling different.symm)

theorem get?_move_sibling {third : String} (notOld : third ≠ name) (notNew : third ≠ other) :
    (tree.move (above ++ [name]) (above ++ [other]) entry).get? (above ++ [third]) =
      tree.get? (above ++ [third]) :=
  (get?_put_sibling notNew.symm).trans (get?_put_sibling notOld.symm)

theorem get?_move_old (entry : Entry) (holder : tree.HasFolder above)
    (different : name ≠ other) :
    (tree.move (above ++ [name]) (above ++ [other]) entry).get? (above ++ [name]) = none :=
  (get?_put_sibling different.symm).trans (Entry.get?_put_self holder)

theorem contentAt?_put {target : Location} {new : Option Entry}
    (outside : ¬ target <+: location) :
    (tree.put target new).contentAt? location = tree.contentAt? location := by
  have found : (tree.put target new).get? location = tree.get? location ∨ _ :=
    Entry.get?_put_outside outside
  rcases found with same | ⟨-, ⟨entries, before⟩, changed, after⟩
  · rw [contentAt?, contentAt?, same]
  · have before : tree.get? location = some (.folder entries) := before
    have after : (tree.put target new).get? location = some (.folder changed) := after
    rw [contentAt?, contentAt?, before, after]
    rfl

theorem contentAt?_move (notOld : ¬ old <+: location) (notNew : ¬ new <+: location) :
    (tree.move old new entry).contentAt? location = tree.contentAt? location :=
  (contentAt?_put notNew).trans (contentAt?_put notOld)

private theorem get?_below {target : Location} (noFolder : ¬ tree.HasFolder target)
    (below : target <+: location) (elsewhere : location ≠ target) : tree.get? location = none := by
  obtain ⟨rest, rfl⟩ := below
  have further : rest ≠ [] := by simpa using elsewhere
  obtain ⟨step, rest, rfl⟩ := List.exists_cons_of_ne_nil further
  rw [get?, Entry.get?_append]
  cases found : tree.root.get? target with
  | none => rfl
  | some entry =>
      cases entry with
      | file => rfl
      | folder entries => exact (noFolder ⟨entries, found⟩).elim

/-- So a place that is no folder, neither before nor after, is all that a change inside
it changes. -/
theorem contentAt?_eq_of_plain {result : FileTree} {target : Location}
    (before : ¬ tree.HasFolder target) (after : ¬ result.HasFolder target)
    (outside : ¬ target <+: location →
      result.contentAt? location = tree.contentAt? location)
    (elsewhere : location ≠ target) :
    result.contentAt? location = tree.contentAt? location := by
  by_cases below : target <+: location
  · rw [contentAt?, contentAt?, get?_below before below elsewhere,
      get?_below after below elsewhere]
  · exact outside below

theorem not_hasFolder_of_get? {content : ByteArray}
    (found : tree.get? location = some (.file content)) :
    ¬ tree.HasFolder location := by
  rintro ⟨entries, folder⟩
  cases found.symm.trans folder

theorem not_hasFolder_of_none (missing : tree.get? location = none) :
    ¬ tree.HasFolder location := by
  rintro ⟨entries, folder⟩
  cases missing.symm.trans folder

end FileTree

end Tapline
