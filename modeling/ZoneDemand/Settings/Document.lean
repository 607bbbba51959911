import ZoneDemand.Settings.Names
import ZoneDemand.Toml.Document

/-!
# Settings from a document

Every section of the settings is a table of a TOML document.  Sections and entries
of other names are ignored.  A section that is absent, and an entry that is absent
from one of the sections `source`, `dataset`, `resample` and `logging`, has its
default.  Any section can also be written as a list of its entries in order.
-/

namespace ZoneDemand
namespace Toml

/-- The entries of a section, looked up by name or, in a list, by place.  A date
counts as a section without entries. -/
def fields? : Toml → Option (Nat → String → Option Toml)
  | .table _ entries => some fun _ name => entries.lookup name
  | .list items => some fun place _ => items[place]?
  | .tables items => some fun place _ => items[place]?.map (.table .header)
  | .date => some fun _ _ => none
  | _ => none

def asText? : Toml → Option String
  | .string s => some s
  | _ => none

def asFlag? : Toml → Option Bool
  | .boolean b => some b
  | _ => none

def asCount? : Toml → Option Nat
  | .integer n => if 0 ≤ n then some n.toNat else none
  | _ => none

/-- Nothing is in it. -/
def isVoid : Toml → Bool
  | .table _ [] => true
  | .list [] => true
  | .tables [] => true
  | _ => false

/-- The name of a choice: a string, or a table whose one entry is void; a table that
is not inline may have further entries. -/
def asName? : Toml → Option String
  | .string s => some s
  | .table origin ((name, v) :: others) =>
      if v.isVoid ∧ (others = [] ∨ origin = .header ∨ origin = .passage ∨
        origin = .dotted false) then some name
      else none
  | _ => none

/-- Reads an entry, which has a default. -/
def orDefault {α : Type} (read : Toml → Option α) (default : α) : Option Toml → Option α
  | none => some default
  | some v => read v

def optional {α : Type} (read : Toml → Option α) : Option Toml → Option (Option α)
  | none => some none
  | some v => (read v).map some

end Toml

open Toml

def ResamplePolicy.ofToml? (v : Toml) : Option ResamplePolicy :=
  v.asName?.bind fun name => [ResamplePolicy.exact, .bucketed].find? fun p => p.name = name

def Backend.ofToml? (v : Toml) : Option Backend :=
  v.asName?.bind fun name => [Backend.directory, .bucket].find? fun b => b.name = name

def LogFormat.ofToml? (v : Toml) : Option LogFormat :=
  v.asName?.bind fun name => [LogFormat.text, .json].find? fun f => f.name = name

def SourceSettings.ofToml? (v : Toml) : Option SourceSettings := do
  let field ← v.fields?
  let d := SourceSettings.default
  let stem ← orDefault asText? d.stem (field 0 "prefix")
  let stagingFile ← orDefault asText? d.stagingFile (field 1 "staging_file")
  let chunkBytes ← orDefault asCount? d.chunkBytes (field 2 "chunk_bytes")
  pure ⟨stem, stagingFile, chunkBytes⟩

def DatasetSettings.ofToml? (v : Toml) : Option DatasetSettings := do
  let field ← v.fields?
  let d := DatasetSettings.default
  let stem ← orDefault asText? d.stem (field 0 "prefix")
  let trainFile ← orDefault asText? d.trainFile (field 1 "train_file")
  let testFile ← orDefault asText? d.testFile (field 2 "test_file")
  let outputDirectory ← orDefault asText? d.outputDirectory (field 3 "output_dir")
  let horizon ← orDefault asCount? d.horizon (field 4 "prediction_length")
  let categories ← orDefault asFlag? d.categories (field 5 "emit_categories")
  pure ⟨stem, trainFile, testFile, outputDirectory, horizon, categories⟩

def ResampleSettings.ofToml? (v : Toml) : Option ResampleSettings := do
  let field ← v.fields?
  let d := ResampleSettings.default
  let stepSeconds ← orDefault asCount? d.stepSeconds (field 0 "step_secs")
  let policy ← orDefault ResamplePolicy.ofToml? d.policy (field 1 "policy")
  pure ⟨stepSeconds, policy⟩

def DirectorySettings.ofToml? (v : Toml) : Option DirectorySettings := do
  let field ← v.fields?
  let path ← (field 0 "path").bind asText?
  pure ⟨path⟩

def BucketSettings.ofToml? (v : Toml) : Option BucketSettings := do
  let field ← v.fields?
  let bucket ← (field 0 "bucket").bind asText?
  let region ← (field 1 "region").bind asText?
  let endpoint ← optional asText? (field 2 "endpoint")
  pure ⟨bucket, region, endpoint⟩

/-- A storage section names its backend, and has no directory unless it tells one. -/
def StorageSettings.ofToml? (v : Toml) : Option StorageSettings := do
  let field ← v.fields?
  let backend ← (field 0 "backend").bind Backend.ofToml?
  let directory ← optional DirectorySettings.ofToml? (field 1 "fs")
  let bucket ← optional BucketSettings.ofToml? (field 2 "s3")
  pure ⟨backend, directory, bucket⟩

def LoggingSettings.ofToml? (v : Toml) : Option LoggingSettings := do
  let field ← v.fields?
  let d := LoggingSettings.default
  let level ← orDefault asText? d.level (field 0 "level")
  let format ← orDefault LogFormat.ofToml? d.format (field 1 "format")
  pure ⟨level, format⟩

namespace Settings

def ofEntries? (entries : Entries) : Option Settings := do
  let source ← orDefault SourceSettings.ofToml? .default (entries.lookup "source")
  let dataset ← orDefault DatasetSettings.ofToml? .default (entries.lookup "dataset")
  let resample ← orDefault ResampleSettings.ofToml? .default (entries.lookup "resample")
  let storage ← orDefault StorageSettings.ofToml? .default (entries.lookup "storage")
  let logging ← orDefault LoggingSettings.ofToml? .default (entries.lookup "logging")
  pure ⟨source, dataset, resample, storage, logging⟩

/-- The settings in the text of a document, its prefixes as they are written. -/
def ofDocument? (document : String) : Option Settings := (Toml.parse document).bind ofEntries?

end Settings
end ZoneDemand
