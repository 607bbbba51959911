import ZoneDemand.Failure
import ZoneDemand.Staging
import ZoneDemand.Transform
import ZoneDemand.Upload

/-!
# The pipeline

Raw records are staged, datasets are built from them, and the dataset files are
uploaded.  Every stage can run on its own; a full run stops at the first stage that
fails.
-/

namespace ZoneDemand

structure Datasets where
  train : DatasetFile
  test : DatasetFile
  stats : ResampleStats
deriving Repr

def Datasets.file (datasets : Datasets) : Half → DatasetFile
  | .train => datasets.train
  | .test => datasets.test

structure PipelineReport where
  staging : StagingOutcome
  datasets : Datasets
  uploaded : List String
deriving Repr

namespace Pipeline

def ofData {α : Type} (action : Action DataError α) : Action Failure α :=
  action.mapFailure fun e => .ofCause (.data e)

def during {α : Type} (activity : Activity) (action : Action Failure α) : Action Failure α :=
  action.mapFailure (·.during activity)

/-- Stages the objects under a prefix into a file. -/
def stageInto (stem path : String) (chunk : Nat) (report? : StagingNotice → Option Entry) :
    Action StorageError StagingOutcome := do
  let world ← get
  let staging := Staging.run world.store world.files stem path chunk
  set { world with files := staging.files }
  Action.report (staging.trace.filterMap report?)
  Action.ofExcept staging.outcome

/-- Stages the raw records. -/
def stage (s : Settings) : Action Failure StagingOutcome :=
  (stageInto s.source.stem s.source.stagingFile s.source.chunkBytes
    StagingNotice.verboseReport?).mapFailure fun e =>
      .during (.staging s.source.stem s.source.stagingFile) (.ofCause (.storage e))

/-- The step between intervals, which must be positive and not too long. -/
def stepOf (s : ResampleSettings) : Except Failure Step :=
  match if s.stepSeconds = 0 then none else Step.ofSeconds? s.stepSeconds with
  | some step => .ok step
  | none => .error (.ofCause (.step s.stepSeconds))

/-- Builds both halves of the dataset from the staged records. -/
def splitDataset (s : Settings) : Action Failure (Split × ResampleStats) := do
  let path := s.source.stagingFile
  let table ← during (.loadingRecords path) (ofData (Transform.loadTable path))
  let zones ← during .enumeratingZones (ofData (Transform.enumerate table))
  let step ← Action.ofExcept (stepOf s.resample)
  let resampled ← ofData (Transform.resample table zones step s.resample.policy)
  let halves ← ofData (Transform.split resampled.series s.dataset.horizon)
  pure (halves, resampled.stats)

/-- Where the file of a half goes. -/
def outputPath (s : DatasetSettings) (half : Half) : String :=
  Path.append s.outputDirectory (s.fileName half)

/-- Writes the file of a half. -/
def writeHalf (s : DatasetSettings) (split : Split) (half : Half) : Action Failure DatasetFile :=
  ofData (Transform.writeDataset (outputPath s half) (split.half half) s.categories)

/-- Builds the datasets and writes their files, that of the training half first. -/
def build (s : Settings) : Action Failure Datasets := do
  let (split, stats) ← splitDataset s
  let train ← writeHalf s.dataset split .train
  let test ← writeHalf s.dataset split .test
  pure ⟨train, test, stats⟩

/-- Uploads a file under a key; answers its size. -/
def uploadFile (path key : String) : Action StorageError Nat := do
  let world ← get
  let upload := Upload.run world.store world.files path key
  set { world with store := upload.store, files := upload.files }
  Action.report upload.journal
  Action.ofExcept upload.outcome

/-- Uploads the file of a half; answers its key. -/
def uploadHalf (s : DatasetSettings) (datasets : Datasets) (half : Half) :
    Action Failure String := do
  let key := datasetKey s.stem half (s.fileName half)
  let _ ← (uploadFile (datasets.file half).path key).mapFailure fun e =>
    .during (.uploading half) (.ofCause (.storage e))
  pure key

/-- Uploads the dataset files, that of the training half first; answers their keys. -/
def upload (s : DatasetSettings) (datasets : Datasets) : Action Failure (List String) := do
  let train ← uploadHalf s datasets .train
  let test ← uploadHalf s datasets .test
  pure [train, test]

def run (s : Settings) : Action Failure PipelineReport := do
  let staging ← stage s
  let datasets ← build s
  let uploaded ← upload s.dataset datasets
  Action.report [.info "Pipeline complete"
    [("train", datasets.train.path), ("test", datasets.test.path),
      ("uploaded", toString uploaded.length)]]
  pure ⟨staging, datasets, uploaded⟩

end Pipeline
end ZoneDemand
