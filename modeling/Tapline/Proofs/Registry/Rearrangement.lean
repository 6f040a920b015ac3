import Tapline.Proofs.Registry.Deployment

/-!
# The order of deployment

A definition sees nothing of the registry but the target of its tap, so where else
it stands makes no difference.  The entries of a manifest that deploys without
failures may be put in any order in which taps by position still follow their
targets: they are deployed without failures again, as the same definitions.
-/

namespace Tapline

/-- A rearrangement of images comes from one of the items. -/
private theorem exists_perm_map {f : α → β} {images : List β} {items : List α}
    (permutation : images.Perm (items.map f)) :
    ∃ rearranged : List α, rearranged.Perm items ∧ rearranged.map f = images := by
  induction images generalizing items with
  | nil =>
      have empty : items = [] := List.map_eq_nil_iff.mp permutation.nil_eq.symm
      exact ⟨[], by rw [empty], rfl⟩
  | cons image images induction =>
      have member : image ∈ items.map f := permutation.subset List.mem_cons_self
      obtain ⟨item, inside, rfl⟩ := List.mem_map.mp member
      obtain ⟨earlier, later, rfl⟩ := List.append_of_mem inside
      have others : images.Perm ((earlier ++ later).map f) := by
        have moved := permutation.trans (List.perm_middle.map f)
        exact List.Perm.cons_inv moved
      obtain ⟨rearranged, same, mapped⟩ := induction others
      refine ⟨item :: rearranged, ?_, by rw [List.map_cons, mapped]⟩
      exact (same.cons item).trans List.perm_middle.symm

namespace Registry

variable {registry : Registry} {definitions : List Definition}

theorem WellFormed.rearrange (wellFormed : registry.WellFormed)
    (permutation : definitions.Perm registry.definitions) :
    (registry.part definitions).WellFormed := by
  constructor
  · exact (permutation.map Definition.name).nodup_iff.mpr wellFormed.names_nodup
  · intro definition member
    exact wellFormed.admissible definition (permutation.subset member)

theorem find?_rearrange (wellFormed : registry.WellFormed)
    (permutation : definitions.Perm registry.definitions) (name : String) :
    (registry.part definitions).find? name = registry.find? name := by
  have rearranged := wellFormed.rearrange permutation
  apply Option.ext
  intro definition
  rw [find?_eq_some rearranged.names_nodup, find?_eq_some wellFormed.names_nodup]
  exact and_congr permutation.mem_iff Iff.rfl

theorem Settled.rearrange (wellFormed : registry.WellFormed) (settled : registry.Settled)
    (permutation : definitions.Perm registry.definitions) :
    (registry.part definitions).Settled := by
  intro definition member
  have inside := permutation.subset member
  refine (wellFormed.admissible definition inside).resolve_of_answer ?_
    (settled definition inside)
  intro request label _ answer
  rw [← answer]
  simp only [Environment.answer?, environment, find?_rearrange wellFormed permutation]

end Registry

/-- What the source of an entry asks for, if its text can be read. -/
def ManifestEntry.request? (entry : ManifestEntry) : Option Request :=
  (Pipeline.parse entry.kind entry.text).toOption.bind
    (·.source.bind Channel.request?)

theorem Definition.Admissible.request?_entry {limit : Option Nat}
    {definition : Definition} (admissible : definition.Admissible limit) :
    definition.entry.request? = definition.request? := by
  have read : Pipeline.parse definition.entry.kind definition.entry.text =
      .ok definition.parsed := admissible.parse_text
  rw [ManifestEntry.request?, read]
  rfl

namespace Manifest

/-- Every tap by position comes after the entry it taps. -/
def TapsFollow (entries : List ManifestEntry) : Prop :=
  ∀ earlier entry later, entries = earlier ++ entry :: later →
    ∀ request, entry.request? = some request →
      ∃ target ∈ earlier, target.name = request.name ∧ target.kind = request.kind

variable {registry : Registry} {entries : List ManifestEntry}

private theorem tapsFollow_iff : TapsFollow entries ↔
    ∀ position (inside : position < entries.length),
      ∀ request ∈ entries[position].request?,
        ∃ target ∈ entries.take position,
          target.name = request.name ∧ target.kind = request.kind := by
  constructor
  · intro follow position inside request asked
    have order : entries =
        entries.take position ++ entries[position] :: entries.drop (position + 1) := by
      rw [List.getElem_cons_drop, List.take_append_drop]
    exact follow _ _ _ order request asked
  · rintro follow earlier entry later rfl request asked
    simpa using follow earlier.length (by simp) request (by simpa using asked)

instance : Decidable (TapsFollow entries) :=
  decidable_of_iff _ tapsFollow_iff.symm

theorem TapsFollow.definitions (wellFormed : registry.WellFormed)
    (follow : TapsFollow (registry.definitions.map Definition.entry)) :
    registry.TapsFollow := by
  intro earlier definition later order request asked
  have admissible := wellFormed.admissible definition (by simp [order])
  have entryOrder : registry.definitions.map Definition.entry =
      earlier.map Definition.entry ++
        definition.entry :: later.map Definition.entry := by
    rw [order, List.map_append, List.map_cons]
  obtain ⟨target, member, targetName, targetKind⟩ := follow _ _ _ entryOrder request
    (admissible.request?_entry.trans asked)
  obtain ⟨found, inside, rfl⟩ := List.mem_map.mp member
  exact ⟨found, inside, targetName, targetKind⟩

private theorem kept_of_silent (silent : (deployEntries registry entries).1 = []) :
    kept registry entries = entries := by
  induction entries generalizing registry with
  | nil => rfl
  | cons entry entries induction =>
      cases outcome : registry.deploy entry.kind entry.name entry.text with
      | ok result =>
          rw [deployEntries_cons_ok outcome] at silent
          rw [kept_cons_ok outcome, induction silent]
      | error failure =>
          rw [deployEntries_cons_error outcome] at silent
          cases silent

/-- An empty registry into which entries are deployed without failures holds them in
their order, each resolved among the earlier ones. -/
theorem deployEntries_empty (limit : Option Nat)
    (silent : (deployEntries (.empty limit) entries).1 = []) :
    ∃ registry : Registry, deployEntries (.empty limit) entries = ([], registry) ∧
      registry.limit = limit ∧ registry.WellFormed ∧ registry.Chronological ∧
        registry.definitions.map Definition.entry = entries := by
  refine ⟨(deployEntries (.empty limit) entries).2, Prod.ext silent rfl, ?_, ?_, ?_, ?_⟩
  · rw [registry_eq]
    rfl
  · exact deployEntries_induction (fun holds deployed => holds.deploy deployed)
      (Registry.wellFormed_empty limit) entries
  · apply deployEntries_induction (fun holds deployed => holds.deploy deployed)
    simp [Registry.Chronological, Registry.empty]
  · rw [registry_eq]
    exact (map_entry_deployed (.empty limit) entries).trans (kept_of_silent silent)

/-- The entries of a manifest that deploys without failures deploy in any order in
which taps follow their targets.  The registry then holds one definition for each entry
in that order, and under every name the same one as before. -/
theorem deployInto_perm (limit : Option Nat) (manifest rearranged : Manifest)
    (silent : (manifest.deployInto (.empty limit)).1 = [])
    (permutation : rearranged.entries.Perm manifest.entries)
    (follow : TapsFollow rearranged.entries) :
    let before := (manifest.deployInto (.empty limit)).2
    let after := (rearranged.deployInto (.empty limit)).2
    (rearranged.deployInto (.empty limit)).1 = [] ∧
      after.definitions.map Definition.entry = rearranged.entries ∧
        (∀ entry ∈ manifest.entries, ∃ definition, definition.entry = entry ∧
          before.find? entry.name = some definition ∧
            after.find? entry.name = some definition) ∧
          ∀ name, after.find? name = before.find? name := by
  obtain ⟨registry, deployed, rfl, wellFormed, chronological, entries⟩ :=
    deployEntries_empty limit silent
  rw [← entries] at permutation
  obtain ⟨definitions, same, mapped⟩ := exists_perm_map permutation
  have rearrangedFormed := wellFormed.rearrange same
  have settled := (chronological.settled wellFormed).rearrange wellFormed same
  have registryFollows : (registry.part definitions).TapsFollow :=
    TapsFollow.definitions rearrangedFormed (by rw [Registry.part, mapped]; exact follow)
  have redeployed : rearranged.deployInto (.empty registry.limit) =
      ([], registry.part definitions) := by
    have order : (registry.part definitions).definitions = [] ++ definitions := rfl
    have again := deployEntries_of_chronological rearrangedFormed
      ((settled.chronological_iff rearrangedFormed).mpr registryFollows) order
    rw [mapped] at again
    exact again
  have original : manifest.deployInto (.empty registry.limit) = ([], registry) := deployed
  have alike := Registry.find?_rearrange wellFormed same
  intro before after
  simp only [before, after, redeployed, original]
  refine ⟨trivial, mapped, fun entry listed => ?_, alike⟩
  obtain ⟨definition, inside, rfl⟩ := List.mem_map.mp (entries ▸ listed)
  have found : registry.find? definition.entry.name = some definition :=
    (Registry.find?_eq_some wellFormed.names_nodup).mpr ⟨inside, rfl⟩
  exact ⟨definition, rfl, found, (alike _).trans found⟩

/-- A tap by position into a tap, a tap into a job, and a tap that names a label and
so may come before its target. -/
theorem deployInto_perm_nightly :
    let main : ManifestEntry := ⟨"main", .stream, "http | t: file"⟩
    let audit : ManifestEntry := ⟨"audit", .stream, "tap:STREAM:main.01 > log"⟩
    let nightly : ManifestEntry := ⟨"nightly", .job, "nightly = batch --cron='0 0'"⟩
    let watch : ManifestEntry := ⟨"watch", .stream, "tap:job:nightly > log > topic:x"⟩
    let copy : ManifestEntry := ⟨"copy", .stream, "tap:audit > file"⟩
    let named : ManifestEntry := ⟨"named", .stream, "tap:copy.file > log"⟩
    let manifest : Manifest := ⟨1, [main, audit, nightly, watch, copy, named]⟩
    let rearranged : Manifest := ⟨1, [named, nightly, main, watch, audit, copy]⟩
    let before := (manifest.deployInto (.empty (some 40))).2
    let after := (rearranged.deployInto (.empty (some 40))).2
    (manifest.deployInto (.empty (some 40))).1 = [] ∧
      rearranged.entries.Perm manifest.entries ∧ TapsFollow rearranged.entries ∧
        (rearranged.deployInto (.empty (some 40))).1 = [] ∧
        before.names = ["main", "audit", "nightly", "watch", "copy", "named"] ∧
          after.definitions.map Definition.display =
            ["named = tap:stream:copy.file > log", "nightly = batch --cron='0 0'",
              "main = http | t: file", "watch = tap:job:nightly.batch > log > topic:x",
              "audit = tap:stream:main.t > log", "copy = tap:stream:audit.log > file"] ∧
            ∃ stored, stored.entry = copy ∧ before.find? "copy" = some stored ∧
              after.find? "copy" = some stored := by
  intro main audit nightly watch copy named manifest rearranged before after
  have silent : (manifest.deployInto (.empty (some 40))).1 = [] := by decide +kernel
  have permutation : rearranged.entries.Perm manifest.entries := by decide +kernel
  have follow : TapsFollow rearranged.entries := by decide +kernel
  obtain ⟨again, -, stored, -⟩ :=
    deployInto_perm (some 40) manifest rearranged silent permutation follow
  exact ⟨silent, permutation, follow, again, by decide +kernel, by decide +kernel,
    stored copy (by simp [manifest])⟩

end Manifest

end Tapline
