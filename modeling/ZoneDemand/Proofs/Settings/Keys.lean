import ZoneDemand.Settings.Document
import Mathlib.Data.Option.Basic

/-!
# The keys of a document

A document sets keys of the sections, each with a value of its type; what it does not set
stays as it is by default, section by section.  Only the storage section comes as a whole or
not at all: one that is there takes the place of the default one, so it must name its backend,
and the default directory is gone unless it names one.
-/

namespace ZoneDemand

/-! ## What a layer sets -/

structure SourceLayer where
  stem : Option String
  stagingFile : Option String
  chunkBytes : Option Nat

structure DatasetLayer where
  stem : Option String
  trainFile : Option String
  testFile : Option String
  outputDirectory : Option String
  horizon : Option Nat
  categories : Option Bool

structure ResampleLayer where
  stepSeconds : Option Nat
  policy : Option ResamplePolicy

structure LoggingLayer where
  level : Option String
  format : Option LogFormat

/-- The section, with what the layer sets over what is there. -/
def SourceLayer.over (l : SourceLayer) (s : SourceSettings) : SourceSettings where
  stem := l.stem.getD s.stem
  stagingFile := l.stagingFile.getD s.stagingFile
  chunkBytes := l.chunkBytes.getD s.chunkBytes

def DatasetLayer.over (l : DatasetLayer) (s : DatasetSettings) : DatasetSettings where
  stem := l.stem.getD s.stem
  trainFile := l.trainFile.getD s.trainFile
  testFile := l.testFile.getD s.testFile
  outputDirectory := l.outputDirectory.getD s.outputDirectory
  horizon := l.horizon.getD s.horizon
  categories := l.categories.getD s.categories

def ResampleLayer.over (l : ResampleLayer) (s : ResampleSettings) : ResampleSettings where
  stepSeconds := l.stepSeconds.getD s.stepSeconds
  policy := l.policy.getD s.policy

def LoggingLayer.over (l : LoggingLayer) (s : LoggingSettings) : LoggingSettings where
  level := l.level.getD s.level
  format := l.format.getD s.format

/-- What a document sets.  A storage section is there or not. -/
structure DocumentLayer where
  source : SourceLayer
  dataset : DatasetLayer
  resample : ResampleLayer
  storage : Option StorageSettings
  logging : LoggingLayer

/-- The settings that a document leads to by itself. -/
def DocumentLayer.settings (d : DocumentLayer) : Settings where
  source := d.source.over .default
  dataset := d.dataset.over .default
  resample := d.resample.over .default
  storage := d.storage.getD .default
  logging := d.logging.over .default

def DocumentLayer.path? (d : DocumentLayer) : Option String :=
  d.storage.bind fun s => s.directory.map DirectorySettings.path

/-! ## Names of choices -/

/-- The name by which each choice is written. -/
def ResamplePolicy.names : List (String × ResamplePolicy) :=
  [("exact", .exact), ("bucket", .bucketed)]

def Backend.names : List (String × Backend) := [("fs", .directory), ("s3", .bucket)]

def LogFormat.names : List (String × LogFormat) := [("text", .text), ("json", .json)]

theorem lookup_names {α : Type} (nameOf : α → String) (choices : List α) (name : String) :
    (choices.map fun a => (nameOf a, a)).lookup name = choices.find? fun a => nameOf a = name := by
  induction choices with
  | nil => rfl
  | cons a choices ih =>
      rw [List.map_cons, List.lookup_cons, List.find?_cons, ih]
      by_cases hname : nameOf a = name
      · simp [hname]
      · simp [hname, beq_false_of_ne (Ne.symm hname)]

namespace Toml

def choice? {α : Type} (names : List (String × α)) (v : Toml) : Option α :=
  v.asName?.bind fun name => names.lookup name

theorem policy_eq_choice? (v : Toml) :
    ResamplePolicy.ofToml? v = choice? ResamplePolicy.names v :=
  congrArg v.asName?.bind
    (funext fun name => (lookup_names ResamplePolicy.name [.exact, .bucketed] name).symm)

theorem backend_eq_choice? (v : Toml) : Backend.ofToml? v = choice? Backend.names v :=
  congrArg v.asName?.bind
    (funext fun name => (lookup_names Backend.name [.directory, .bucket] name).symm)

theorem format_eq_choice? (v : Toml) : LogFormat.ofToml? v = choice? LogFormat.names v :=
  congrArg v.asName?.bind
    (funext fun name => (lookup_names LogFormat.name [.text, .json] name).symm)

/-! ## Values in sections -/

/-- What a section, if it is there, has under a name or, being a list, at a place. -/
def under? (given? : Option Toml) (place : Nat) (name : String) : Option Toml :=
  given?.bind fun v => v.fields?.bind fun field => field place name

def HasKeys (given? : Option Toml) : Prop := ∀ v, given? = some v → v.fields?.isSome

/-- A value that is there is read as the one that is told; nothing is told of one that is
not. -/
abbrev Told {α : Type} (read : Toml → Option α) (value? : Option Toml) (told : Option α) : Prop :=
  Option.Rel (fun v a => read v = some a) value? told

end Toml

open Toml

structure SourceLayer.FromSection (given? : Option Toml) (l : SourceLayer) : Prop where
  hasKeys : HasKeys given?
  stem : Told asText? (under? given? 0 "prefix") l.stem
  stagingFile : Told asText? (under? given? 1 "staging_file") l.stagingFile
  chunkBytes : Told asCount? (under? given? 2 "chunk_bytes") l.chunkBytes

structure DatasetLayer.FromSection (given? : Option Toml) (l : DatasetLayer) : Prop where
  hasKeys : HasKeys given?
  stem : Told asText? (under? given? 0 "prefix") l.stem
  trainFile : Told asText? (under? given? 1 "train_file") l.trainFile
  testFile : Told asText? (under? given? 2 "test_file") l.testFile
  outputDirectory : Told asText? (under? given? 3 "output_dir") l.outputDirectory
  horizon : Told asCount? (under? given? 4 "prediction_length") l.horizon
  categories : Told asFlag? (under? given? 5 "emit_categories") l.categories

structure ResampleLayer.FromSection (given? : Option Toml) (l : ResampleLayer) : Prop where
  hasKeys : HasKeys given?
  stepSeconds : Told asCount? (under? given? 0 "step_secs") l.stepSeconds
  policy : Told (choice? ResamplePolicy.names) (under? given? 1 "policy") l.policy

structure LoggingLayer.FromSection (given? : Option Toml) (l : LoggingLayer) : Prop where
  hasKeys : HasKeys given?
  level : Told asText? (under? given? 0 "level") l.level
  format : Told (choice? LogFormat.names) (under? given? 1 "format") l.format

structure DirectorySettings.FromSection (v : Toml) (s : DirectorySettings) : Prop where
  path : Told asText? (under? (some v) 0 "path") (some s.path)

/-- A bucket must tell its name and its region. -/
structure BucketSettings.FromSection (v : Toml) (s : BucketSettings) : Prop where
  bucket : Told asText? (under? (some v) 0 "bucket") (some s.bucket)
  region : Told asText? (under? (some v) 1 "region") (some s.region)
  endpoint : Told asText? (under? (some v) 2 "endpoint") s.endpoint

/-- A storage section must tell its backend. -/
structure StorageSettings.FromSection (v : Toml) (s : StorageSettings) : Prop where
  backend : Told (choice? Backend.names) (under? (some v) 0 "backend") (some s.backend)
  directory : Option.Rel DirectorySettings.FromSection (under? (some v) 1 "fs") s.directory
  bucket : Option.Rel BucketSettings.FromSection (under? (some v) 2 "s3") s.bucket

structure DocumentLayer.FromEntries (entries : Entries) (d : DocumentLayer) : Prop where
  source : d.source.FromSection (entries.lookup "source")
  dataset : d.dataset.FromSection (entries.lookup "dataset")
  resample : d.resample.FromSection (entries.lookup "resample")
  storage : Option.Rel StorageSettings.FromSection (entries.lookup "storage") d.storage
  logging : d.logging.FromSection (entries.lookup "logging")

/-! ## Reading by keys -/

section Reading

variable {α : Type} {read : Toml → Option α} {means : Toml → α → Prop}
  (hread : ∀ v a, read v = some a ↔ means v a) {value? : Option Toml}
include hread

theorem rel_some_iff {a : α} :
    Option.Rel means value? (some a) ↔ ∃ v, value? = some v ∧ read v = some a := by
  constructor
  · intro h
    cases h with
    | some hmeans => exact ⟨_, rfl, (hread _ _).mpr hmeans⟩
  · rintro ⟨v, rfl, hv⟩
    exact .some ((hread v a).mp hv)

theorem optional_eq_some_iff {told : Option α} :
    Toml.optional read value? = some told ↔ Option.Rel means value? told := by
  cases value? with
  | none =>
      cases told with
      | none => exact iff_of_true rfl .none
      | some a =>
          refine iff_of_false (by simp [Toml.optional]) ?_
          rintro ⟨⟩
  | some v =>
      cases told with
      | none =>
          refine iff_of_false (by simp [Toml.optional]) ?_
          rintro ⟨⟩
      | some a =>
          rw [rel_some_iff hread]
          simp [Toml.optional]

theorem orDefault_eq_some_iff {default a : α} :
    orDefault read default value? = some a ↔
      ∃ told, Option.Rel means value? told ∧ a = told.getD default := by
  simp only [← optional_eq_some_iff hread]
  cases value? with
  | none => simp [orDefault, Toml.optional, eq_comm]
  | some v => cases hv : read v <;> simp [orDefault, Toml.optional, hv, eq_comm]

end Reading

/-- A section with defaults is read key by key, whether it is there or not. -/
theorem section_eq_some_iff {α : Type} (read : Toml → Option α)
    {keys : (Nat → String → Option Toml) → Option α} {default a : α}
    (hread : ∀ v, read v = v.fields?.bind keys) (hnone : keys (fun _ _ => none) = some default)
    {given? : Option Toml} :
    orDefault read default given? = some a ↔
      HasKeys given? ∧ keys (under? given?) = some a := by
  cases given? with
  | none =>
      have hkeys : keys (under? none) = some default := hnone
      simp [orDefault, HasKeys, hkeys]
  | some v =>
      rw [orDefault, hread]
      cases hfields : v.fields? with
      | none => simp [HasKeys, hfields]
      | some field =>
          have hunder : under? (some v) = field := by
            funext place name
            simp [under?, hfields]
          simp [HasKeys, hfields, hunder]

theorem told_iff {α : Type} {read : Toml → Option α} {default a : α} {value? : Option Toml} :
    orDefault read default value? = some a ↔
      ∃ told, Told read value? told ∧ a = told.getD default :=
  orDefault_eq_some_iff fun _ _ => Iff.rfl

theorem source_eq_some_iff {given? : Option Toml} {s : SourceSettings} :
    orDefault SourceSettings.ofToml? .default given? = some s ↔
      ∃ l : SourceLayer, l.FromSection given? ∧ s = l.over .default := by
  rw [section_eq_some_iff SourceSettings.ofToml? (fun _ => rfl) rfl]
  simp only [Option.bind_eq_bind, Option.bind_eq_some_iff, told_iff, Option.pure_def]
  constructor
  · rintro ⟨hsection, _, ⟨stem, hstem, rfl⟩, _, ⟨file, hfile, rfl⟩, _, ⟨count, hcount, rfl⟩, hs⟩
    exact ⟨⟨stem, file, count⟩, ⟨hsection, hstem, hfile, hcount⟩, (Option.some.inj hs).symm⟩
  · rintro ⟨l, ⟨hsection, hstem, hfile, hcount⟩, rfl⟩
    exact ⟨hsection, _, ⟨_, hstem, rfl⟩, _, ⟨_, hfile, rfl⟩, _, ⟨_, hcount, rfl⟩, rfl⟩

theorem dataset_eq_some_iff {given? : Option Toml} {s : DatasetSettings} :
    orDefault DatasetSettings.ofToml? .default given? = some s ↔
      ∃ l : DatasetLayer, l.FromSection given? ∧ s = l.over .default := by
  rw [section_eq_some_iff DatasetSettings.ofToml? (fun _ => rfl) rfl]
  simp only [Option.bind_eq_bind, Option.bind_eq_some_iff, told_iff, Option.pure_def]
  constructor
  · rintro ⟨hsection, _, ⟨stem, hstem, rfl⟩, _, ⟨train, htrain, rfl⟩, _, ⟨test, htest, rfl⟩,
      _, ⟨output, houtput, rfl⟩, _, ⟨horizon, hhorizon, rfl⟩, _, ⟨flag, hflag, rfl⟩, hs⟩
    exact ⟨⟨stem, train, test, output, horizon, flag⟩,
      ⟨hsection, hstem, htrain, htest, houtput, hhorizon, hflag⟩, (Option.some.inj hs).symm⟩
  · rintro ⟨l, ⟨hsection, hstem, htrain, htest, houtput, hhorizon, hflag⟩, rfl⟩
    exact ⟨hsection, _, ⟨_, hstem, rfl⟩, _, ⟨_, htrain, rfl⟩, _, ⟨_, htest, rfl⟩,
      _, ⟨_, houtput, rfl⟩, _, ⟨_, hhorizon, rfl⟩, _, ⟨_, hflag, rfl⟩, rfl⟩

theorem resample_eq_some_iff {given? : Option Toml} {s : ResampleSettings} :
    orDefault ResampleSettings.ofToml? .default given? = some s ↔
      ∃ l : ResampleLayer, l.FromSection given? ∧ s = l.over .default := by
  rw [section_eq_some_iff ResampleSettings.ofToml? (fun _ => rfl) rfl]
  simp only [Option.bind_eq_bind, Option.bind_eq_some_iff, told_iff, Option.pure_def,
    funext policy_eq_choice?]
  constructor
  · rintro ⟨hsection, _, ⟨step, hstep, rfl⟩, _, ⟨policy, hpolicy, rfl⟩, hs⟩
    exact ⟨⟨step, policy⟩, ⟨hsection, hstep, hpolicy⟩, (Option.some.inj hs).symm⟩
  · rintro ⟨l, ⟨hsection, hstep, hpolicy⟩, rfl⟩
    exact ⟨hsection, _, ⟨_, hstep, rfl⟩, _, ⟨_, hpolicy, rfl⟩, rfl⟩

theorem logging_eq_some_iff {given? : Option Toml} {s : LoggingSettings} :
    orDefault LoggingSettings.ofToml? .default given? = some s ↔
      ∃ l : LoggingLayer, l.FromSection given? ∧ s = l.over .default := by
  rw [section_eq_some_iff LoggingSettings.ofToml? (fun _ => rfl) rfl]
  simp only [Option.bind_eq_bind, Option.bind_eq_some_iff, told_iff, Option.pure_def,
    funext format_eq_choice?]
  constructor
  · rintro ⟨hsection, _, ⟨level, hlevel, rfl⟩, _, ⟨format, hformat, rfl⟩, hs⟩
    exact ⟨⟨level, format⟩, ⟨hsection, hlevel, hformat⟩, (Option.some.inj hs).symm⟩
  · rintro ⟨l, ⟨hsection, hlevel, hformat⟩, rfl⟩
    exact ⟨hsection, _, ⟨_, hlevel, rfl⟩, _, ⟨_, hformat, rfl⟩, rfl⟩

/-! ## The storage section -/

/-- A section without defaults is read key by key. -/
theorem keys_of_section {α : Type} (read : Toml → Option α)
    {keys : (Nat → String → Option Toml) → Option α}
    (hread : ∀ v, read v = v.fields?.bind keys) (hnone : keys (fun _ _ => none) = none)
    (v : Toml) : read v = keys (under? (some v)) := by
  rw [hread]
  cases hfields : v.fields? with
  | none =>
      have hunder : under? (some v) = fun _ _ => none := by
        funext place name
        simp [under?, hfields]
      rw [hunder, hnone, Option.bind_none]
  | some field =>
      have hunder : under? (some v) = field := by
        funext place name
        simp [under?, hfields]
      rw [hunder, Option.bind_some]

theorem told_some_iff {α : Type} {read : Toml → Option α} {a : α} {value? : Option Toml} :
    Told read value? (some a) ↔ ∃ v, value? = some v ∧ read v = some a :=
  rel_some_iff fun _ _ => Iff.rfl

theorem directory_eq_some_iff (v : Toml) (s : DirectorySettings) :
    DirectorySettings.ofToml? v = some s ↔ s.FromSection v := by
  rw [keys_of_section DirectorySettings.ofToml? (fun _ => rfl) rfl]
  simp only [Option.bind_eq_bind, Option.bind_eq_some_iff, Option.pure_def]
  simp only [← told_some_iff]
  constructor
  · rintro ⟨path, hpath, ⟨⟩⟩
    exact ⟨hpath⟩
  · rintro ⟨hpath⟩
    exact ⟨_, hpath, rfl⟩

theorem bucket_eq_some_iff (v : Toml) (s : BucketSettings) :
    BucketSettings.ofToml? v = some s ↔ s.FromSection v := by
  rw [keys_of_section BucketSettings.ofToml? (fun _ => rfl) rfl]
  simp only [Option.bind_eq_bind, Option.bind_eq_some_iff, Option.pure_def,
    optional_eq_some_iff fun _ _ => Iff.rfl]
  simp only [← told_some_iff]
  constructor
  · rintro ⟨bucket, hbucket, region, hregion, endpoint, hendpoint, ⟨⟩⟩
    exact ⟨hbucket, hregion, hendpoint⟩
  · rintro ⟨hbucket, hregion, hendpoint⟩
    exact ⟨_, hbucket, _, hregion, _, hendpoint, rfl⟩

theorem storage_eq_some_iff (v : Toml) (s : StorageSettings) :
    StorageSettings.ofToml? v = some s ↔ s.FromSection v := by
  rw [keys_of_section StorageSettings.ofToml? (fun _ => rfl) rfl]
  simp only [Option.bind_eq_bind, Option.bind_eq_some_iff, Option.pure_def,
    optional_eq_some_iff directory_eq_some_iff, optional_eq_some_iff bucket_eq_some_iff,
    backend_eq_choice?]
  simp only [← told_some_iff]
  constructor
  · rintro ⟨backend, hbackend, directory, hdirectory, bucket, hbucket, ⟨⟩⟩
    exact ⟨hbackend, hdirectory, hbucket⟩
  · rintro ⟨hbackend, hdirectory, hbucket⟩
    exact ⟨_, hbackend, _, hdirectory, _, hbucket, rfl⟩

/-! ## The whole document -/

namespace Settings

theorem ofEntries?_eq_some_iff {entries : Entries} {s : Settings} :
    ofEntries? entries = some s ↔
      ∃ d : DocumentLayer, d.FromEntries entries ∧ s = d.settings := by
  unfold ofEntries?
  simp only [Option.bind_eq_bind, Option.bind_eq_some_iff, Option.pure_def, source_eq_some_iff,
    dataset_eq_some_iff, resample_eq_some_iff, logging_eq_some_iff,
    orDefault_eq_some_iff storage_eq_some_iff]
  constructor
  · rintro ⟨_, ⟨source, hsource, rfl⟩, _, ⟨dataset, hdataset, rfl⟩, _, ⟨resample, hresample, rfl⟩,
      _, ⟨storage, hstorage, rfl⟩, _, ⟨logging, hlogging, rfl⟩, ⟨⟩⟩
    exact ⟨⟨source, dataset, resample, storage, logging⟩,
      ⟨hsource, hdataset, hresample, hstorage, hlogging⟩, rfl⟩
  · rintro ⟨d, ⟨hsource, hdataset, hresample, hstorage, hlogging⟩, rfl⟩
    exact ⟨_, ⟨_, hsource, rfl⟩, _, ⟨_, hdataset, rfl⟩, _, ⟨_, hresample, rfl⟩,
      _, ⟨_, hstorage, rfl⟩, _, ⟨_, hlogging, rfl⟩, rfl⟩

end Settings
end ZoneDemand
