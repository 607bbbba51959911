import ZoneDemand.Resample
import ZoneDemand.Split
import ZoneDemand.Stem

/-!
# Settings

What a run may be told: where raw records come from and where they are staged, how
they are resampled and split, where datasets go, and how to log.  Every setting
but those of a bucket has a default.
-/

namespace ZoneDemand

/-- Raw records: the prefix of their keys, the local file they are staged into and
the octets read at a time. -/
structure SourceSettings where
  stem : String
  stagingFile : String
  chunkBytes : Nat
deriving DecidableEq, Repr

/-- Datasets: the prefix of their keys, the names of their files and the local
directory of these, the number of intervals held out of training, and whether
records carry a category. -/
structure DatasetSettings where
  stem : String
  trainFile : String
  testFile : String
  outputDirectory : String
  horizon : Nat
  categories : Bool
deriving DecidableEq, Repr

structure ResampleSettings where
  stepSeconds : Nat
  policy : ResamplePolicy
deriving DecidableEq, Repr

/-- Where the objects of a run are. -/
inductive Backend where
  | directory
  | bucket
deriving DecidableEq, Repr

structure DirectorySettings where
  path : String
deriving DecidableEq, Repr

structure BucketSettings where
  bucket : String
  region : String
  endpoint : Option String
deriving DecidableEq, Repr

structure StorageSettings where
  backend : Backend
  directory : Option DirectorySettings
  bucket : Option BucketSettings
deriving DecidableEq, Repr

inductive LogFormat where
  | text
  | json
deriving DecidableEq, Repr

structure LoggingSettings where
  level : String
  format : LogFormat
deriving DecidableEq, Repr

structure Settings where
  source : SourceSettings
  dataset : DatasetSettings
  resample : ResampleSettings
  storage : StorageSettings
  logging : LoggingSettings
deriving DecidableEq, Repr

def SourceSettings.default : SourceSettings := ⟨"kinesis-output/", "source.csv", 8388608⟩

def DatasetSettings.default : DatasetSettings :=
  ⟨"sagemaker/nyctlc", "train.json", "test.json", ".", 144, false⟩

def ResampleSettings.default : ResampleSettings := ⟨600, .exact⟩

def DirectorySettings.default : DirectorySettings := ⟨"./data"⟩

def StorageSettings.default : StorageSettings := ⟨.directory, some .default, none⟩

def LoggingSettings.default : LoggingSettings := ⟨"info", .text⟩

def Settings.default : Settings :=
  ⟨.default, .default, .default, .default, .default⟩

def SourceSettings.normalize (s : SourceSettings) : SourceSettings :=
  { s with stem := sourceStem s.stem }

def DatasetSettings.normalize (s : DatasetSettings) : DatasetSettings :=
  { s with stem := datasetStem s.stem }

/-- Brings both prefixes into shape. -/
def Settings.normalize (s : Settings) : Settings :=
  { s with source := s.source.normalize, dataset := s.dataset.normalize }

def DatasetSettings.fileName (s : DatasetSettings) : Half → String
  | .train => s.trainFile
  | .test => s.testFile

end ZoneDemand
