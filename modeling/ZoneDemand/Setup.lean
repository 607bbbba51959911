import ZoneDemand.Failure
import ZoneDemand.World

/-!
# Setting up a run

Validation with its warnings, the opening of the object store that the settings
describe, and the summary of the settings at the start of a run.  A bucket is
opened without a transport.
-/

namespace ZoneDemand

namespace Settings

/-- Fails with the first fault. -/
def validate (s : Settings) : Action Failure Unit := do
  Action.report s.validationJournal
  match s.fault? with
  | some fault => throw (.ofCause (.setting fault))
  | none => pure ()

end Settings

namespace StorageSettings

/-- Makes the store that is described the store of the run. -/
def openStore (s : StorageSettings) : Action StorageError Unit := do
  match s.backend, s.directory, s.bucket with
  | .directory, none, _ => throw (.setup .noDirectorySection)
  | .directory, some directory, _ =>
      Action.report [.info s!"Using filesystem storage at: {directory.path}" []]
      let store ← Action.mapFailure (fun fault => .setup (.directory fault))
        (Action.onFiles fun tree => DirectoryStore.open tree directory.path)
      modify fun world => { world with store := .directory store }
  | .bucket, _, none => throw (.setup .noBucketSection)
  | .bucket, _, some bucket =>
      Action.report [.info
        s!"Using S3 storage: bucket={bucket.bucket}, region={bucket.region}" []]
      if bucket.bucket = "" ∨ bucket.region = "" then
        throw (.setup (.bucket .configInvalid))
      modify fun world => { world with store := .bucket .none }
  Action.report [.debug "Storage operator initialized" []]

end StorageSettings

namespace Settings

/-- Opens the store at the start of a run. -/
def openStore (s : Settings) : Action Failure Unit := do
  Action.report [.info
    s!"Initializing object store with storage backend: {s.storage.backend.name}" []]
  Action.mapFailure (fun e => .during .openingStore (.ofCause (.storage e))) s.storage.openStore

def version : String := "0.1.0"

/-- A horizontal line of the summary, after its corner. -/
def rule : String := String.ofList (List.replicate 49 '─')

def storageLines (s : StorageSettings) : List String :=
  match s.backend, s.directory, s.bucket with
  | .directory, some directory, _ => [s!"│ Storage root: {directory.path}"]
  | .bucket, _, some bucket => [s!"│ S3 bucket: {bucket.bucket}", s!"│ S3 region: {bucket.region}"]
  | _, _, _ => []

def summary (s : Settings) : List String :=
  ["╭" ++ rule, s!"│ pickups2deepar v{version}", "├" ++ rule,
    s!"│ Storage backend: {s.storage.backend.name}"] ++
  storageLines s.storage ++
  [s!"│ Source prefix: {s.source.stem}",
    s!"│ Staging file: {s.source.stagingFile}",
    s!"│ Dataset prefix: {s.dataset.stem}",
    s!"│ Output directory: {s.dataset.outputDirectory}",
    s!"│ Resample: every {s.resample.stepSeconds}s ({s.resample.policy.name} policy)",
    s!"│ Prediction length: {s.dataset.horizon} intervals",
    s!"│ Log level: {s.logging.level}",
    "╰" ++ rule]

/-- Reports the summary. -/
def reportSummary {ε : Type} (s : Settings) : Action ε Unit :=
  Action.report (s.summary.map fun line => .info line [])

end Settings
end ZoneDemand
