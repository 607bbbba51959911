import ZoneDemand.Proofs.Settings.Keys
import ZoneDemand.Settings.Layers

/-!
# What a document sets

A document lies over the defaults key by key, with one exception.  A storage section has no
defaults of its own: it must name its backend, it loses the directory unless it tells one,
and a bucket section must have a name and a region.
-/

namespace ZoneDemand

namespace Toml

/-! ## Documented keys -/

/-- The value at the end of a path of names, which leads through tables. -/
def at? (entries : Entries) : List String → Option Toml
  | [] => none
  | [name] => entries.lookup name
  | name :: rest =>
      match entries.lookup name with
      | some (.table _ inner) => at? inner rest
      | _ => none

/-- What a documented key may have as its value. -/
inductive Kind where
  | table
  | text
  | count
  | flag
  | policy
  | backend
  | format
deriving DecidableEq

def Kind.admits : Kind → Toml → Bool
  | .table, .table _ _ => true
  | .text, .string _ => true
  | .count, .integer n => 0 ≤ n
  | .flag, .boolean _ => true
  | .policy, .string s => s = "exact" || s = "bucket"
  | .backend, .string s => s = "fs" || s = "s3"
  | .format, .string s => s = "text" || s = "json"
  | _, _ => false

def documentedKeys : List (List String × Kind) :=
  [(["source"], .table), (["source", "prefix"], .text), (["source", "staging_file"], .text),
    (["source", "chunk_bytes"], .count),
    (["dataset"], .table), (["dataset", "prefix"], .text), (["dataset", "train_file"], .text),
    (["dataset", "test_file"], .text), (["dataset", "output_dir"], .text),
    (["dataset", "prediction_length"], .count), (["dataset", "emit_categories"], .flag),
    (["resample"], .table), (["resample", "step_secs"], .count),
    (["resample", "policy"], .policy),
    (["storage"], .table), (["storage", "backend"], .backend),
    (["storage", "fs"], .table), (["storage", "fs", "path"], .text),
    (["storage", "s3"], .table), (["storage", "s3", "bucket"], .text),
    (["storage", "s3", "region"], .text), (["storage", "s3", "endpoint"], .text),
    (["logging"], .table), (["logging", "level"], .text), (["logging", "format"], .format)]

/-- Every documented key that is set has a value of its type. -/
def WellTyped (entries : Entries) : Prop :=
  ∀ entry ∈ documentedKeys, (at? entries entry.1).all entry.2.admits

instance (entries : Entries) : Decidable (WellTyped entries) :=
  inferInstanceAs (Decidable (∀ _ ∈ _, _))

theorem WellTyped.admits {entries : Entries} (htyped : WellTyped entries) (path : List String)
    (kind : Kind) (hkey : (path, kind) ∈ documentedKeys) {v : Toml}
    (hv : at? entries path = some v) : kind.admits v := by
  have hall := htyped (path, kind) hkey
  simpa only [hv, Option.all_some] using hall

theorem WellTyped.table {entries : Entries} (htyped : WellTyped entries) (path : List String)
    (hkey : (path, Kind.table) ∈ documentedKeys) {v : Toml} (hv : at? entries path = some v) :
    ∃ origin inner, v = .table origin inner := by
  have hadmits := htyped.admits path .table hkey hv
  cases v with
  | table origin inner => exact ⟨origin, inner, rfl⟩
  | _ => contradiction

/-- How the values of a kind are read. -/
def Kind.Reads (kind : Kind) (v : Toml) : Prop :=
  match kind with
  | .table => v.fields?.isSome
  | .text => v.asText?.isSome
  | .count => v.asCount?.isSome
  | .flag => v.asFlag?.isSome
  | .policy => (ResamplePolicy.ofToml? v).isSome
  | .backend => (Backend.ofToml? v).isSome
  | .format => (LogFormat.ofToml? v).isSome

theorem Kind.reads_of_admits {kind : Kind} {v : Toml} (h : kind.admits v) : kind.Reads v := by
  unfold admits at h
  split at h
  · rfl
  · rfl
  · rename_i n
    simp only [decide_eq_true_eq] at h
    simp [Reads, asCount?, h]
  · rfl
  · rename_i s
    simp only [Bool.or_eq_true, decide_eq_true_eq] at h
    rcases h with rfl | rfl <;> rfl
  · rename_i s
    simp only [Bool.or_eq_true, decide_eq_true_eq] at h
    rcases h with rfl | rfl <;> rfl
  · rename_i s
    simp only [Bool.or_eq_true, decide_eq_true_eq] at h
    rcases h with rfl | rfl <;> rfl
  · contradiction

section Reading

variable {α : Type} {read : Toml → Option α} {field : Option Toml}

theorem told_bind (hread : ∀ v, field = some v → (read v).isSome) :
    Told read field (field.bind read) := by
  cases field with
  | none => exact .none
  | some v =>
      obtain ⟨a, ha⟩ := Option.isSome_iff_exists.mp (hread v rfl)
      rw [Option.bind_some, ha]
      exact .some ha

theorem optional_eq (hread : ∀ v, field = some v → (read v).isSome) :
    optional read field = some (field.bind read) := by
  cases field with
  | none => rfl
  | some v =>
      obtain ⟨a, ha⟩ := Option.isSome_iff_exists.mp (hread v rfl)
      simp [optional, ha]

end Reading

/-- The value at a path, if it can be read. -/
def read? {α : Type} (entries : Entries) (path : List String) (read : Toml → Option α) :
    Option α :=
  (at? entries path).bind read

theorem at?_cons {entries inner : Entries} {name : String} {origin : Origin}
    (hname : entries.lookup name = some (.table origin inner)) (next : String)
    (rest : List String) : at? entries (name :: next :: rest) = at? inner (next :: rest) := by
  simp [at?, hname]

theorem read?_pair {α : Type} {entries inner : Entries} {name : String} {origin : Origin}
    (hname : entries.lookup name = some (.table origin inner)) (key : String)
    (read : Toml → Option α) : read? entries [name, key] read = (inner.lookup key).bind read := by
  rw [read?, at?_cons hname, at?]

theorem at?_cons_of_none {entries : Entries} {name : String} (hname : entries.lookup name = none)
    (rest : List String) : at? entries (name :: rest) = none := by
  cases rest <;> simp [at?, hname]

end Toml

open Toml

/-! ## Layers -/

/-- A bucket has no defaults: what is not set is absent or empty. -/
structure BucketSettings.Layered (entries : Entries) (b : Option BucketSettings) : Prop where
  bucket : (b.map BucketSettings.bucket).getD "" =
    (read? entries ["storage", "s3", "bucket"] asText?).getD ""
  region : (b.map BucketSettings.region).getD "" =
    (read? entries ["storage", "s3", "region"] asText?).getD ""
  endpoint : b.bind BucketSettings.endpoint =
    read? entries ["storage", "s3", "endpoint"] asText?

structure StorageSettings.Layered (entries : Entries) (s : StorageSettings) : Prop where
  backend : s.backend =
    (read? entries ["storage", "backend"] Backend.ofToml?).getD StorageSettings.default.backend
  directory : s.directory =
    some ⟨(read? entries ["storage", "fs", "path"] asText?).getD DirectorySettings.default.path⟩
  bucket : BucketSettings.Layered entries s.bucket

/-- Every key that the entries set has its value, every other key its default. -/
structure Settings.Layered (entries : Entries) (s : Settings) : Prop where
  source : s.source =
    { stem := sourceStem
        ((read? entries ["source", "prefix"] asText?).getD SourceSettings.default.stem)
      stagingFile := (read? entries ["source", "staging_file"] asText?).getD
        SourceSettings.default.stagingFile
      chunkBytes := (read? entries ["source", "chunk_bytes"] asCount?).getD
        SourceSettings.default.chunkBytes }
  dataset : s.dataset =
    { stem := datasetStem
        ((read? entries ["dataset", "prefix"] asText?).getD DatasetSettings.default.stem)
      trainFile := (read? entries ["dataset", "train_file"] asText?).getD
        DatasetSettings.default.trainFile
      testFile := (read? entries ["dataset", "test_file"] asText?).getD
        DatasetSettings.default.testFile
      outputDirectory := (read? entries ["dataset", "output_dir"] asText?).getD
        DatasetSettings.default.outputDirectory
      horizon := (read? entries ["dataset", "prediction_length"] asCount?).getD
        DatasetSettings.default.horizon
      categories := (read? entries ["dataset", "emit_categories"] asFlag?).getD
        DatasetSettings.default.categories }
  resample : s.resample =
    { stepSeconds := (read? entries ["resample", "step_secs"] asCount?).getD
        ResampleSettings.default.stepSeconds
      policy := (read? entries ["resample", "policy"] ResamplePolicy.ofToml?).getD
        ResampleSettings.default.policy }
  storage : s.storage.Layered entries
  logging : s.logging =
    { level := (read? entries ["logging", "level"] asText?).getD LoggingSettings.default.level
      format := (read? entries ["logging", "format"] LogFormat.ofToml?).getD
        LoggingSettings.default.format }

/-- There is no storage section, or it tells its backend and its directory, and a bucket in
it has a name and a region. -/
def CompleteStorage (entries : Entries) : Prop :=
  (at? entries ["storage"]).isNone ∨
    ((at? entries ["storage", "backend"]).isSome ∧ (at? entries ["storage", "fs", "path"]).isSome ∧
      ((at? entries ["storage", "s3"]).isNone ∨
        (at? entries ["storage", "s3", "bucket"]).isSome ∧
          (at? entries ["storage", "s3", "region"]).isSome))

instance (entries : Entries) : Decidable (CompleteStorage entries) :=
  inferInstanceAs (Decidable (_ ∨ _))

section Sections

variable {entries : Entries} (htyped : WellTyped entries)
include htyped

/-- A key of a section that is there. -/
theorem reads_of_key {name : String} {origin : Origin} {fields : Entries}
    (hsection : entries.lookup name = some (.table origin fields)) (key : String) (kind : Kind)
    (hkey : ([name, key], kind) ∈ documentedKeys) :
    ∀ v, fields.lookup key = some v → kind.Reads v := by
  intro v hv
  refine Kind.reads_of_admits (htyped.admits [name, key] kind hkey ?_)
  rw [at?_cons hsection]
  exact hv

theorem hasKeys_of_documented {name : String} (hname : ([name], Kind.table) ∈ documentedKeys) :
    HasKeys (entries.lookup name) := by
  intro v hv
  obtain ⟨origin, fields, rfl⟩ := htyped.table [name] hname hv
  rfl

/-- A documented section tells of a key what is at its path, and nothing if it is not there. -/
theorem told_read? {α : Type} {name key : String} (hname : ([name], Kind.table) ∈ documentedKeys)
    (place : Nat) (kind : Kind) (hkey : ([name, key], kind) ∈ documentedKeys)
    {read : Toml → Option α} (hreads : ∀ v, kind.Reads v → (read v).isSome) :
    Told read (under? (entries.lookup name) place key) (read? entries [name, key] read) := by
  cases hsection : entries.lookup name with
  | none =>
      rw [read?, at?_cons_of_none hsection]
      exact .none
  | some v =>
      obtain ⟨origin, fields, rfl⟩ := htyped.table [name] hname hsection
      rw [read?_pair hsection]
      exact told_bind fun v hv => hreads v (reads_of_key htyped hsection key kind hkey v hv)

theorem source_of_entries :
    orDefault SourceSettings.ofToml? .default (entries.lookup "source") =
      some
        { stem := (read? entries ["source", "prefix"] asText?).getD SourceSettings.default.stem
          stagingFile := (read? entries ["source", "staging_file"] asText?).getD
            SourceSettings.default.stagingFile
          chunkBytes := (read? entries ["source", "chunk_bytes"] asCount?).getD
            SourceSettings.default.chunkBytes } := by
  have hname : (["source"], Kind.table) ∈ documentedKeys := by decide
  refine source_eq_some_iff.mpr ⟨⟨_, _, _⟩, ?_, rfl⟩
  exact
    { hasKeys := hasKeys_of_documented htyped hname
      stem := told_read? htyped hname 0 .text (by decide) fun _ => id
      stagingFile := told_read? htyped hname 1 .text (by decide) fun _ => id
      chunkBytes := told_read? htyped hname 2 .count (by decide) fun _ => id }

theorem dataset_of_entries :
    orDefault DatasetSettings.ofToml? .default (entries.lookup "dataset") =
      some
        { stem := (read? entries ["dataset", "prefix"] asText?).getD DatasetSettings.default.stem
          trainFile := (read? entries ["dataset", "train_file"] asText?).getD
            DatasetSettings.default.trainFile
          testFile := (read? entries ["dataset", "test_file"] asText?).getD
            DatasetSettings.default.testFile
          outputDirectory := (read? entries ["dataset", "output_dir"] asText?).getD
            DatasetSettings.default.outputDirectory
          horizon := (read? entries ["dataset", "prediction_length"] asCount?).getD
            DatasetSettings.default.horizon
          categories := (read? entries ["dataset", "emit_categories"] asFlag?).getD
            DatasetSettings.default.categories } := by
  have hname : (["dataset"], Kind.table) ∈ documentedKeys := by decide
  refine dataset_eq_some_iff.mpr ⟨⟨_, _, _, _, _, _⟩, ?_, rfl⟩
  exact
    { hasKeys := hasKeys_of_documented htyped hname
      stem := told_read? htyped hname 0 .text (by decide) fun _ => id
      trainFile := told_read? htyped hname 1 .text (by decide) fun _ => id
      testFile := told_read? htyped hname 2 .text (by decide) fun _ => id
      outputDirectory := told_read? htyped hname 3 .text (by decide) fun _ => id
      horizon := told_read? htyped hname 4 .count (by decide) fun _ => id
      categories := told_read? htyped hname 5 .flag (by decide) fun _ => id }

theorem resample_of_entries :
    orDefault ResampleSettings.ofToml? .default (entries.lookup "resample") =
      some
        { stepSeconds := (read? entries ["resample", "step_secs"] asCount?).getD
            ResampleSettings.default.stepSeconds
          policy := (read? entries ["resample", "policy"] ResamplePolicy.ofToml?).getD
            ResampleSettings.default.policy } := by
  have hname : (["resample"], Kind.table) ∈ documentedKeys := by decide
  have hpolicy : Told ResamplePolicy.ofToml? (under? (entries.lookup "resample") 1 "policy")
      (read? entries ["resample", "policy"] ResamplePolicy.ofToml?) :=
    told_read? htyped hname 1 .policy (by decide) fun _ => id
  rw [funext policy_eq_choice?] at hpolicy ⊢
  refine resample_eq_some_iff.mpr ⟨⟨_, _⟩, ?_, rfl⟩
  exact
    { hasKeys := hasKeys_of_documented htyped hname
      stepSeconds := told_read? htyped hname 0 .count (by decide) fun _ => id
      policy := hpolicy }

theorem logging_of_entries :
    orDefault LoggingSettings.ofToml? .default (entries.lookup "logging") =
      some
        { level := (read? entries ["logging", "level"] asText?).getD LoggingSettings.default.level
          format := (read? entries ["logging", "format"] LogFormat.ofToml?).getD
            LoggingSettings.default.format } := by
  have hname : (["logging"], Kind.table) ∈ documentedKeys := by decide
  have hformat : Told LogFormat.ofToml? (under? (entries.lookup "logging") 1 "format")
      (read? entries ["logging", "format"] LogFormat.ofToml?) :=
    told_read? htyped hname 1 .format (by decide) fun _ => id
  rw [funext format_eq_choice?] at hformat ⊢
  refine logging_eq_some_iff.mpr ⟨⟨_, _⟩, ?_, rfl⟩
  exact
    { hasKeys := hasKeys_of_documented htyped hname
      level := told_read? htyped hname 0 .text (by decide) fun _ => id
      format := hformat }

section Storage

variable {origin : Origin} {fields : Entries}
  (hsection : entries.lookup "storage" = some (.table origin fields))
include hsection

theorem directory_of_fields_iff :
    optional DirectorySettings.ofToml? (fields.lookup "fs") =
        some (some ⟨(read? entries ["storage", "fs", "path"] asText?).getD
          DirectorySettings.default.path⟩) ↔
      (at? entries ["storage", "fs", "path"]).isSome := by
  rw [read?, at?_cons hsection]
  cases hfs : fields.lookup "fs" with
  | none => simp [at?_cons_of_none hfs, Toml.optional]
  | some v =>
      obtain ⟨inner, keys, rfl⟩ := htyped.table ["storage", "fs"] (by decide) (v := v)
        (by rw [at?_cons hsection, at?, hfs])
      rw [at?_cons hfs]
      cases hpath : keys.lookup "path" with
      | none => simp [at?, Toml.optional, DirectorySettings.ofToml?, fields?, hpath]
      | some w =>
          have hreads : w.asText?.isSome := Kind.reads_of_admits
            (htyped.admits ["storage", "fs", "path"] .text (by decide)
              (by rw [at?_cons hsection, at?_cons hfs, at?, hpath]))
          obtain ⟨text, htext⟩ := Option.isSome_iff_exists.mp hreads
          simp [at?, Toml.optional, DirectorySettings.ofToml?, fields?, hpath, htext]

/-- A bucket section that is there must have both a name and a region. -/
theorem bucket_of_fields_iff :
    (∃ b, Toml.optional BucketSettings.ofToml? (fields.lookup "s3") = some b ∧
      BucketSettings.Layered entries b) ↔
      (at? entries ["storage", "s3"]).isNone ∨
        (at? entries ["storage", "s3", "bucket"]).isSome ∧
          (at? entries ["storage", "s3", "region"]).isSome := by
  have hpath := at?_cons hsection
  cases hs3 : fields.lookup "s3" with
  | none =>
      have hnone := at?_cons_of_none hs3
      refine iff_of_true ⟨none, rfl, ?_⟩ (.inl (by rw [hpath, hnone]; rfl))
      constructor <;> simp only [read?, hpath, hnone] <;> rfl
  | some v =>
      obtain ⟨inner, keys, rfl⟩ := htyped.table ["storage", "s3"] (by decide) (v := v)
        (by rw [hpath, at?, hs3])
      have hkey : ∀ key, (["storage", "s3", key], Kind.text) ∈ documentedKeys →
          ∀ w, keys.lookup key = some w → w.asText?.isSome := by
        intro key hmem w hw
        refine Kind.reads_of_admits (htyped.admits ["storage", "s3", key] .text hmem ?_)
        rw [hpath, at?_cons hs3]
        exact hw
      have hsome : ¬(at? entries ["storage", "s3"]).isNone := by
        rw [hpath, at?, hs3]
        simp
      have hat : ∀ key, at? entries ["storage", "s3", key] = keys.lookup key := fun key => by
        rw [hpath, at?_cons hs3, at?]
      rw [hat, hat]
      constructor
      · rintro ⟨b, hb, -⟩
        simp only [Toml.optional, BucketSettings.ofToml?, fields?, Option.bind_eq_bind,
          Option.bind_some, Option.map_eq_some_iff, Option.bind_eq_some_iff] at hb
        obtain ⟨-, ⟨-, ⟨name, hname, -⟩, -, ⟨region, hregion, -⟩, -⟩, -⟩ := hb
        exact .inr ⟨by rw [hname]; rfl, by rw [hregion]; rfl⟩
      · rintro (hnone | ⟨hbucket, hregion⟩)
        · exact absurd hnone hsome
        · obtain ⟨v, hv⟩ := Option.isSome_iff_exists.mp hbucket
          obtain ⟨w, hw⟩ := Option.isSome_iff_exists.mp hregion
          obtain ⟨name, hname⟩ := Option.isSome_iff_exists.mp (hkey "bucket" (by decide) v hv)
          obtain ⟨region, hregion⟩ := Option.isSome_iff_exists.mp (hkey "region" (by decide) w hw)
          refine ⟨some ⟨name, region, (keys.lookup "endpoint").bind asText?⟩, ?_, ?_⟩
          · have htold : BucketSettings.ofToml? (.table inner keys) =
                some ⟨name, region, (keys.lookup "endpoint").bind asText?⟩ := by
              simp [BucketSettings.ofToml?, fields?, hv, hw, hname, hregion,
                optional_eq (hkey "endpoint" (by decide))]
            simp [Toml.optional, htold]
          · constructor <;> simp [read?, hat, hv, hw, hname, hregion]

/-- A storage section answers settings over the defaults exactly if it tells everything. -/
theorem storage_of_fields_iff :
    (∃ s, StorageSettings.ofToml? (.table origin fields) = some s ∧ s.Layered entries) ↔
      CompleteStorage entries := by
  have hpresent : ¬(at? entries ["storage"]).isNone := by
    rw [at?, hsection]
    simp
  have hbackend : ((fields.lookup "backend").bind Backend.ofToml?).isSome ↔
      (at? entries ["storage", "backend"]).isSome := by
    rw [at?_cons hsection, at?]
    cases hname : fields.lookup "backend" with
    | none => simp
    | some v =>
        have hreads := reads_of_key htyped hsection "backend" .backend (by decide) v hname
        exact iff_of_true hreads rfl
  rw [CompleteStorage, or_iff_right hpresent, ← hbackend,
    ← directory_of_fields_iff htyped hsection, ← bucket_of_fields_iff htyped hsection]
  simp only [StorageSettings.ofToml?, fields?, Option.bind_eq_bind, Option.bind_some]
  constructor
  · rintro ⟨s, hs, hlayered⟩
    obtain ⟨backend, hname, hs⟩ := Option.bind_eq_some_iff.mp hs
    obtain ⟨directory, hdirectory, hs⟩ := Option.bind_eq_some_iff.mp hs
    obtain ⟨bucket, hbucket, hs⟩ := Option.bind_eq_some_iff.mp hs
    have hs : s = ⟨backend, directory, bucket⟩ := (Option.some.inj hs).symm
    subst hs
    have htold : directory = _ := hlayered.directory
    rw [htold] at hdirectory
    exact ⟨by rw [hname]; rfl, hdirectory, bucket, hbucket, hlayered.bucket⟩
  · rintro ⟨hname, hdirectory, bucket, hbucket, hlayered⟩
    obtain ⟨backend, hname⟩ := Option.isSome_iff_exists.mp hname
    refine ⟨⟨backend, _, bucket⟩, ?_, ?_, rfl, hlayered⟩
    · rw [hname, hdirectory, hbucket]
      rfl
    · rw [read?_pair hsection, hname]
      rfl

end Storage

theorem storage_of_entries_iff :
    (∃ s, orDefault StorageSettings.ofToml? .default (entries.lookup "storage") = some s ∧
      s.Layered entries) ↔ CompleteStorage entries := by
  cases hsection : entries.lookup "storage" with
  | none =>
      have hnone := at?_cons_of_none hsection
      refine iff_of_true ⟨_, rfl, ?_, ?_, ?_⟩ (.inl (by rw [hnone]; rfl))
      · simp only [read?, hnone]
        rfl
      · simp only [read?, hnone]
        rfl
      · constructor <;> simp only [read?, hnone] <;> rfl
  | some v =>
      obtain ⟨origin, fields, rfl⟩ := htyped.table ["storage"] (by decide) hsection
      exact storage_of_fields_iff htyped hsection

end Sections

/-- A document lies over the defaults key by key exactly if its storage section, should it
have one, tells everything. -/
theorem ofText_layered_iff {document : String} {entries : Entries}
    (hparse : Toml.parse document = some entries) (htyped : WellTyped entries) :
    (∃ s, Settings.ofText document = .ok s ∧ s.Layered entries) ↔ CompleteStorage entries := by
  rw [← storage_of_entries_iff htyped]
  unfold Settings.ofText Settings.ofDocument?
  rw [hparse, Option.bind_some]
  unfold Settings.ofEntries?
  rw [source_of_entries htyped, dataset_of_entries htyped, resample_of_entries htyped,
    logging_of_entries htyped]
  simp only [Option.bind_eq_bind, Option.bind_some]
  cases hstorage : orDefault StorageSettings.ofToml? .default (entries.lookup "storage") with
  | none => simp
  | some storage =>
      simp only [Option.bind_some]
      constructor
      · rintro ⟨s, hs, hlayered⟩
        have hs := Except.ok.inj hs
        subst hs
        exact ⟨storage, rfl, hlayered.storage⟩
      · rintro ⟨other, hother, hlayered⟩
        rw [Option.some.injEq] at hother
        exact ⟨_, rfl, rfl, rfl, rfl, hother ▸ hlayered, rfl⟩

def directoryInUse : String :=
  "[resample]\npolicy = \"bucket\"\n\n[storage]\nbackend = \"fs\"\nfs.path = \"/data/pickups\"\n"

theorem directoryInUse_layered :
    ∃ entries, Toml.parse directoryInUse = some entries ∧ WellTyped entries ∧
      ∃ s, Settings.ofText directoryInUse = .ok s ∧ s.Layered entries := by
  have hread : (Toml.parse directoryInUse).any
      (fun entries => WellTyped entries ∧ CompleteStorage entries) := by decide +kernel
  obtain ⟨entries, hparse, hholds⟩ := (Option.any_eq_true _ _).mp hread
  obtain ⟨htyped, hcomplete⟩ := of_decide_eq_true hholds
  exact ⟨entries, hparse, htyped, (ofText_layered_iff hparse htyped).mpr hcomplete⟩

/-- A document that tells the directory and leaves the backend to its default. -/
def directoryOnly : String := "[storage.fs]\npath = \"/data/pickups\"\n"

theorem directoryOnly_refused :
    ∃ entries, Toml.parse directoryOnly = some entries ∧ WellTyped entries ∧
      ¬∃ s, Settings.ofText directoryOnly = .ok s ∧ s.Layered entries := by
  have hread : (Toml.parse directoryOnly).any (fun entries => WellTyped entries) := by
    decide +kernel
  have hrefused : (Settings.ofText directoryOnly).toOption = none := by decide +kernel
  obtain ⟨entries, hparse, htyped⟩ := (Option.any_eq_true _ _).mp hread
  refine ⟨entries, hparse, of_decide_eq_true htyped, ?_⟩
  rintro ⟨s, hs, -⟩
  rw [hs] at hrefused
  contradiction

end ZoneDemand
