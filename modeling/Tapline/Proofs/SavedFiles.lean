import Tapline.Manifest.Document
import Tapline.Proofs.Files.Replacement
import Tapline.Proofs.Json.RoundTrip
import Tapline.Settings.Document

/-!
# Saved files

What has been saved is loaded again: manifests and settings are understood as
what they were written from, whatever their texts and numbers, and a saved file
is read back with what was written.  A version that is too new is refused, but
only by the reader.
-/

namespace Tapline

namespace Json

variable {Item Value : Type}

private theorem mapM_map {encode : Item → Value} {Result : Type} {decode : Value → Option Result}
    {result : Item → Result} {items : List Item}
    (inverse : ∀ item ∈ items, decode (encode item) = some (result item)) :
    (items.map encode).mapM decode = some (items.map result) := by
  induction items with
  | nil => rfl
  | cons item items induction =>
      obtain ⟨first, rest⟩ := List.forall_mem_cons.mp inverse
      simp [List.mapM_cons, first, induction rest]

@[simp]
theorem text?_ofText (content : String) : (ofText content).text? = some content := rfl

private theorem nat?_ofNat {value largest : Nat} (small : value ≤ largest) :
    nat? largest (ofNat value) = some value := by
  have read := Text.decimal?_toString value
  simp only [nat?, ofNat]
  rw [read]
  exact if_pos small

private theorem list?_map {encode : Item → Json} {decode : Json → Option Item}
    (inverse : ∀ item, decode (encode item) = some item) (items : List Item) :
    list? decode (.list (items.map encode)) = some items := by
  rw [list?, mapM_map fun item _ => inverse item, List.map_id']

private theorem nullable?_ofOption {encode : Value → Json} {decode : Json → Option Value}
    {choice : Option Value} (inverse : ∀ value ∈ choice, decode (encode value) = some value)
    (apart : ∀ value ∈ choice, encode value ≠ .null) :
    nullable? decode (ofOption encode choice) = some choice := by
  cases choice with
  | none => rfl
  | some value =>
      rw [ofOption, nullable?]
      · simp [inverse value rfl]
      · exact apart value rfl

private theorem fieldValue?_of_mem {fields : List (String × Json)}
    (distinct : (fields.map Prod.fst).Nodup) {field : String × Json}
    (member : field ∈ fields) : fieldValue? fields field.1 = some (some field.2) := by
  have found : fields.filter (·.1 = field.1) = [field] := by
    induction fields with
    | nil => simp at member
    | cons other fields induction =>
        obtain ⟨absent, distinct⟩ := List.nodup_cons.mp distinct
        rcases List.mem_cons.mp member with rfl | member
        · have none : fields.filter (·.1 = field.1) = [] := by
            rw [List.filter_eq_nil_iff]
            intro later member same
            exact absent (of_decide_eq_true same ▸ List.mem_map_of_mem member)
          rw [List.filter_cons_of_pos (by simp), none]
        · have apart : ¬ other.1 = field.1 := fun same =>
            absent (same ▸ List.mem_map_of_mem member)
          rw [List.filter_cons_of_neg (by simpa using apart), induction distinct member]
  rw [fieldValue?, found]

theorem fields?_ofFields {fields : List (String × Json)}
    (distinct : (fields.map Prod.fst).Nodup) :
    (ofFields fields).fields? (fields.map Prod.fst) =
      some (fields.map fun field => some field.2) := by
  have values : (fields.map Prod.fst).mapM (fieldValue? fields) =
      some (fields.map fun field => some field.2) :=
    mapM_map fun _ member => fieldValue?_of_mem distinct member
  refine Option.bind_eq_some_iff.mpr ⟨fields, ?_, values⟩
  clear values distinct
  induction fields with
  | nil => rfl
  | cons field fields induction => simp [List.mapM_cons, induction]

end Json

namespace Kind

theorem ofJson?_toJson (kind : Kind) : ofJson? kind.toJson = some kind :=
  ofWord?_word kind

end Kind

namespace ManifestEntry

theorem fields?_toJson (entry : ManifestEntry) :
    entry.toJson.fields? ["name", "kind", "text"] =
      some [some (.ofText entry.name), some entry.kind.toJson, some (.ofText entry.text)] :=
  Json.fields?_ofFields (show ["name", "kind", "text"].Nodup by decide)

theorem ofJson?_toJson (entry : ManifestEntry) : ofJson? entry.toJson = some entry := by
  simp [ofJson?, fields?_toJson, Json.required?, Json.optional?, Kind.ofJson?_toJson]

theorem hasNaturals_toJson (entry : ManifestEntry) : entry.toJson.HasNaturals :=
  ⟨trivial, trivial, trivial, trivial⟩

end ManifestEntry

namespace Manifest

theorem fields?_toJson (manifest : Manifest) :
    manifest.toJson.fields? ["version", "definitions"] =
      some [some (.ofNat manifest.version),
        some (.list (manifest.entries.map ManifestEntry.toJson))] :=
  Json.fields?_ofFields (show ["version", "definitions"].Nodup by decide)

/-- A manifest is understood, whatever its entries are and even if its version is
not supported. -/
theorem ofJson?_toJson {manifest : Manifest} (small : manifest.version ≤ 4294967295) :
    ofJson? manifest.toJson = some manifest := by
  have version : Json.version? (.ofNat manifest.version) = some manifest.version :=
    Json.nat?_ofNat small
  have entries :
      Json.list? ManifestEntry.ofJson?
        (.list (manifest.entries.map ManifestEntry.toJson)) = some manifest.entries :=
    Json.list?_map ManifestEntry.ofJson?_toJson manifest.entries
  simp [ofJson?, fields?_toJson, Json.required?, version, entries]

theorem hasNaturals_toJson (manifest : Manifest) : manifest.toJson.HasNaturals := by
  have entries : ∀ entries : List ManifestEntry,
      Json.ItemsHaveNaturals (entries.map ManifestEntry.toJson) := by
    intro entries
    induction entries with
    | nil => trivial
    | cons entry entries induction => exact ⟨entry.hasNaturals_toJson, induction⟩
  exact ⟨⟨manifest.version, rfl⟩, entries manifest.entries, trivial⟩

theorem ofFile_pretty {manifest : Manifest} (small : manifest.version ≤ 4294967295) :
    ofFile (.ok manifest.toJson.pretty) =
      if manifest.version ≤ supportedVersion then .ok manifest
      else .error (.newerManifest manifest.version supportedVersion) := by
  rw [ofFile, Json.read?_pretty manifest.hasNaturals_toJson, Option.bind_some,
    ofJson?_toJson small]
  by_cases supported : manifest.version ≤ supportedVersion
  · simp [supported, Nat.not_lt.mpr supported]
  · simp [supported, Nat.not_le.mp supported]

theorem load_of_located {manifest : Manifest} {tree : FileTree} {path : String}
    {location : Location} (supported : manifest.version ≤ supportedVersion)
    (located : tree.locate (Path.ofText path) = .ok location)
    (plain : (Path.ofText path).asFolder = false)
    (found : tree.get? location = some (.file manifest.toJson.pretty.toUTF8)) :
    load tree path = .ok manifest := by
  have small : manifest.version ≤ 4294967295 :=
    Nat.le_trans supported (by decide)
  rw [load, FileTree.readText_of_readBytes (FileTree.readBytes_of_located located found plain),
    ofFile_pretty small, if_pos supported]

theorem load_save {manifest : Manifest} {tree written : FileTree} {path : String}
    (small : manifest.version ≤ 4294967295)
    (saved : manifest.save tree path = (.ok (), written)) :
    load written path =
      if manifest.version ≤ supportedVersion then .ok manifest
      else .error (.newerManifest manifest.version supportedVersion) := by
  rw [load, FileTree.readText_of_replaceFile saved, ofFile_pretty small]

end Manifest

namespace Settings

theorem fields?_toJson (settings : Settings) :
    settings.toJson.fields?
        ["version", "max_definition_length", "log_filter", "default_manifest"] =
      some [some (.ofNat settings.version),
        some (.ofOption .ofNat settings.maxDefinitionLength),
        some (.ofText settings.logFilter),
        some (.ofOption .ofText settings.defaultManifest)] :=
  Json.fields?_ofFields
    (show ["version", "max_definition_length", "log_filter", "default_manifest"].Nodup
      by decide)

/-- Settings are understood, whatever their texts and numbers are and even if
their version is not supported. -/
theorem ofJson?_toJson {settings : Settings} (small : settings.version ≤ 4294967295)
    (limited : ∀ limit ∈ settings.maxDefinitionLength, limit ≤ largestLimit) :
    ofJson? settings.toJson = some settings := by
  have version : Json.version? (.ofNat settings.version) = some settings.version :=
    Json.nat?_ofNat small
  have limit :
      Json.nullable? (Json.nat? largestLimit)
          (.ofOption .ofNat settings.maxDefinitionLength) =
        some settings.maxDefinitionLength :=
    Json.nullable?_ofOption (fun value member => Json.nat?_ofNat (limited value member))
      fun _ _ => Json.noConfusion
  have manifest :
      Json.nullable? Json.text? (.ofOption .ofText settings.defaultManifest) =
        some settings.defaultManifest :=
    Json.nullable?_ofOption (fun value _ => Json.text?_ofText value)
      fun _ _ => Json.noConfusion
  simp [ofJson?, fields?_toJson, Json.required?, Json.optional?, version, limit, manifest]

theorem hasNaturals_toJson (settings : Settings) : settings.toJson.HasNaturals := by
  have limit :
      (Json.ofOption Json.ofNat settings.maxDefinitionLength).HasNaturals := by
    cases settings.maxDefinitionLength with
    | none => trivial
    | some limit => exact ⟨limit, rfl⟩
  have manifest : (Json.ofOption Json.ofText settings.defaultManifest).HasNaturals := by
    cases settings.defaultManifest <;> trivial
  exact ⟨⟨settings.version, rfl⟩, limit, trivial, manifest, trivial⟩

theorem ofFile_pretty {settings : Settings} (path : String)
    (small : settings.version ≤ 4294967295)
    (limited : ∀ limit ∈ settings.maxDefinitionLength, limit ≤ largestLimit) :
    ofFile path (.ok settings.toJson.pretty) =
      if settings.version ≤ supportedVersion then .ok settings
      else .error (.unsupportedVersion settings.version supportedVersion) := by
  rw [ofFile, Json.read?_pretty settings.hasNaturals_toJson, Option.bind_some,
    ofJson?_toJson small limited]
  by_cases supported : settings.version ≤ supportedVersion
  · simp [supported, Nat.not_lt.mpr supported]
  · simp [supported, Nat.not_le.mp supported]

theorem save_eq_ok {settings : Settings} {tree written : FileTree} {path : String}
    (saved : settings.save tree path = (.ok (), written)) :
    ∃ grown : FileTree,
      grown.replaceFile path settings.toJson.pretty.toUTF8 = (.ok (), written) := by
  rw [save] at saved
  split at saved
  · cases saved
  · rename_i grown _
    refine ⟨grown, ?_⟩
    cases replaced : grown.replaceFile path settings.toJson.pretty.toUTF8 with
    | mk result last =>
        rw [replaced] at saved
        cases result with
        | error error => cases saved
        | ok => exact congrArg (Except.ok (), ·) (Prod.mk.inj saved).2

theorem load_save {settings : Settings} {tree written : FileTree} {path : String}
    (small : settings.version ≤ 4294967295)
    (limited : ∀ limit ∈ settings.maxDefinitionLength, limit ≤ largestLimit)
    (saved : settings.save tree path = (.ok (), written)) :
    load written path =
      if settings.version ≤ supportedVersion then .ok settings
      else .error (.unsupportedVersion settings.version supportedVersion) := by
  obtain ⟨grown, replaced⟩ := save_eq_ok saved
  rw [load, FileTree.readText_of_replaceFile replaced, ofFile_pretty path small limited]

end Settings

namespace FileTree

/-- A manifest and settings are loaded as they were saved, whatever was in the file
before, and a version beyond the supported one is reported as what it is. -/
theorem load_of_save (tree written : FileTree) (path : String) :
    (∀ manifest : Manifest, manifest.version ≤ 4294967295 →
      manifest.save tree path = (.ok (), written) →
        Manifest.load written path =
          if manifest.version ≤ Manifest.supportedVersion then .ok manifest
          else .error (.newerManifest manifest.version Manifest.supportedVersion)) ∧
    ∀ settings : Settings, settings.version ≤ 4294967295 →
      (∀ limit ∈ settings.maxDefinitionLength, limit ≤ Settings.largestLimit) →
      settings.save tree path = (.ok (), written) →
        Settings.load written path =
          if settings.version ≤ Settings.supportedVersion then .ok settings
          else .error (.unsupportedVersion settings.version Settings.supportedVersion) :=
  ⟨fun _ small saved => Manifest.load_save small saved,
    fun _ small limited saved => Settings.load_save small limited saved⟩

/-- Texts that need escapes, the largest limit, folders that are made for the file,
and two versions that are too new. -/
theorem load_of_save_escaped :
    let tree : FileTree :=
      ⟨.folder [("work", .folder [("a.json", .file ByteArray.empty)])], ["work"]⟩
    let manifest : Manifest :=
      ⟨1, [⟨"a\"b\\c/", .job, "tap:x \t > \n\x00\x1f\x7f é 😀"⟩, ⟨"", .stream, ""⟩]⟩
    let newer : Manifest := { manifest with version := 4294967295 }
    let settings : Settings :=
      ⟨0, some 18446744073709551615, "\"\\", some "ü/\u2028.json"⟩
    let later : Settings := ⟨2, none, "", none⟩
    ((manifest.save tree "a.json").1 = .ok () ∧
      Manifest.load (manifest.save tree "a.json").2 "a.json" = .ok manifest) ∧
    ((newer.save tree "../work/a.json").1 = .ok () ∧
      Manifest.load (newer.save tree "../work/a.json").2 "../work/a.json" =
        .error (.newerManifest 4294967295 1)) ∧
    ((settings.save tree "new/b.json").1 = .ok () ∧
      Settings.load (settings.save tree "new/b.json").2 "new/b.json" = .ok settings) ∧
    ((later.save tree "/work/b.json").1 = .ok () ∧
      Settings.load (later.save tree "/work/b.json").2 "/work/b.json" =
        .error (.unsupportedVersion 2 1)) := by
  intro tree manifest newer settings later
  have whole {ε : Type} {outcome : Except ε Unit × FileTree}
      (ok : outcome.1 = .ok ()) : outcome = (.ok (), outcome.2) := Prod.ext ok rfl
  have written : (manifest.save tree "a.json").1 = .ok () := by decide +kernel
  have newerWritten : (newer.save tree "../work/a.json").1 = .ok () := by decide +kernel
  have settingsWritten : (settings.save tree "new/b.json").1 = .ok () := by decide +kernel
  have laterWritten : (later.save tree "/work/b.json").1 = .ok () := by decide +kernel
  refine ⟨⟨written, ?_⟩, ⟨newerWritten, ?_⟩, ⟨settingsWritten, ?_⟩, ⟨laterWritten, ?_⟩⟩
  · exact (load_of_save tree (manifest.save tree "a.json").2 "a.json").1 manifest
      (by decide) (whole written)
  · exact (load_of_save tree (newer.save tree "../work/a.json").2 "../work/a.json").1
      newer (by decide) (whole newerWritten)
  · exact (load_of_save tree (settings.save tree "new/b.json").2 "new/b.json").2 settings
      (by decide) (by decide) (whole settingsWritten)
  · exact (load_of_save tree (later.save tree "/work/b.json").2 "/work/b.json").2 later
      (by decide) (by decide) (whole laterWritten)

end FileTree

end Tapline
