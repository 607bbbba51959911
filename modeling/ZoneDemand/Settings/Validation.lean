import ZoneDemand.Environment
import ZoneDemand.Journal
import ZoneDemand.Settings

/-!
# Validation of settings

Settings are valid if nothing that a run needs is missing or meaningless.  The
faults of the sections are looked for in their order, the first one is reported.
Doubtful settings are only warned of, and not if an earlier section has a fault.
-/

namespace ZoneDemand

inductive SettingFault where
  | noSourceStem
  | noStagingFile
  | noChunk
  | noFileName (half : Half)
  | nestedFileName (half : Half) (name : String)
  | sameFileNames (name : String)
  | noOutputDirectory
  | noHorizon
  | noStep
  | noDirectorySection
  | noDirectoryPath
  | noBucketSection
  | noBucketName
  | noRegion
deriving DecidableEq, Repr

namespace SettingFault

/-- A text that shows how a missing setting can be given. -/
def advice (lack key value part entry : String) : String :=
  s!"{lack}\n\nHow to fix:\n• Environment: export {Environment.fullName key}={value}\n" ++
    s!"• TOML: [{part}]\n              {entry}\n"

def fileSetting (half : Half) : String := s!"dataset.{half.name}_file"

def message : SettingFault → String
  | .noSourceStem =>
      advice "Source prefix is required" "SOURCE_PREFIX" "kinesis-output/20211213/"
        "source" "prefix = \"kinesis-output/20211213/\""
  | .noStagingFile => "source.staging_file must not be empty"
  | .noChunk => "source.chunk_bytes must be greater than 0"
  | .noFileName half => s!"{fileSetting half} must not be empty"
  | .nestedFileName half name => s!"{fileSetting half} must be a bare file name, got '{name}'"
  | .sameFileNames name =>
      s!"dataset.train_file and dataset.test_file must differ (both '{name}')"
  | .noOutputDirectory => "dataset.output_dir must not be empty"
  | .noHorizon => "dataset.prediction_length must be greater than 0"
  | .noStep =>
      advice "resample.step_secs must be greater than 0" "RESAMPLE_STEP_SECS" "600"
        "resample" "step_secs = 600"
  | .noDirectorySection => "fs storage backend requires 'fs' configuration"
  | .noDirectoryPath =>
      advice "Filesystem path is required" "STORAGE_PATH" "/data/pickups"
        "storage.fs" "path = \"/data/pickups\""
  | .noBucketSection => "s3 storage backend requires 's3' configuration"
  | .noBucketName =>
      advice "S3 bucket name is required" "S3_BUCKET" "my-bucket"
        "storage.s3" "bucket = \"my-bucket\""
  | .noRegion =>
      advice "S3 region is required" "S3_REGION" "us-west-2"
        "storage.s3" "region = \"us-west-2\""

end SettingFault

def SourceSettings.fault? (s : SourceSettings) : Option SettingFault :=
  if s.stem = "" then some .noSourceStem
  else if s.stagingFile = "" then some .noStagingFile
  else if s.chunkBytes = 0 then some .noChunk
  else none

namespace DatasetSettings

def fileFault? (s : DatasetSettings) (half : Half) : Option SettingFault :=
  if s.fileName half = "" then some (.noFileName half)
  else if '/' ∈ (s.fileName half).toList then some (.nestedFileName half (s.fileName half))
  else none

def fault? (s : DatasetSettings) : Option SettingFault :=
  s.fileFault? .train <|> s.fileFault? .test <|>
    if s.trainFile = s.testFile then some (.sameFileNames s.trainFile)
    else if s.outputDirectory = "" then some .noOutputDirectory
    else if s.horizon = 0 then some .noHorizon
    else none

end DatasetSettings

def ResampleSettings.fault? (s : ResampleSettings) : Option SettingFault :=
  if s.stepSeconds = 0 then some .noStep else none

def StorageSettings.fault? (s : StorageSettings) : Option SettingFault :=
  match s.backend, s.directory, s.bucket with
  | .directory, none, _ => some .noDirectorySection
  | .directory, some directory, _ =>
      if directory.path = "" then some .noDirectoryPath else none
  | .bucket, _, none => some .noBucketSection
  | .bucket, _, some bucket =>
      if bucket.bucket = "" then some .noBucketName
      else if bucket.region = "" then some .noRegion
      else none

namespace Settings

/-- The seconds that are held out of training, at most the largest count. -/
def horizonSeconds (s : Settings) : Nat :=
  min (s.resample.stepSeconds * s.dataset.horizon) maxCount

def weekSeconds : Nat := 7 * 24 * 60 * 60

/-- Doubtful settings. -/
def warnings (s : Settings) : Journal :=
  (if s.resample.stepSeconds % 60 = 0 then []
    else [.warn ("resample.step_secs is not a whole number of minutes; " ++
      "source timestamps are usually minute-aligned")
      [("step_secs", toString s.resample.stepSeconds)]]) ++
  (if s.horizonSeconds ≤ weekSeconds then []
    else [.warn "prediction horizon is longer than a week"
      [("horizon_secs", toString s.horizonSeconds),
        ("prediction_length", toString s.dataset.horizon)]])

def earlyFault? (s : Settings) : Option SettingFault :=
  s.source.fault? <|> s.dataset.fault? <|> s.resample.fault?

def fault? (s : Settings) : Option SettingFault := s.earlyFault? <|> s.storage.fault?

def validationJournal (s : Settings) : Journal :=
  if s.earlyFault?.isSome then [] else s.warnings

end Settings
end ZoneDemand
