import ZoneDemand.DataError
import ZoneDemand.Settings.Overrides
import ZoneDemand.Settings.Validation
import ZoneDemand.Store.Fault

/-!
# Failures of a run

A failure has one cause and the activities in which it arose.  It is reported by
their texts, the outermost activity first.
-/

namespace ZoneDemand

inductive Activity where
  | readingSettings (path : String)
  | parsingSettings (path : String)
  /-- Parsing settings that a variable holds. -/
  | parsingVariable
  /-- Parsing settings that were given as a text. -/
  | parsingText
  /-- Assembling settings, from a file that was asked for or not. -/
  | loadingSettings (path : Option String)
  | openingStore
  | staging (stem path : String)
  | loadingRecords (path : String)
  | enumeratingZones
  | uploading (half : Half)
deriving DecidableEq, Repr

def Activity.message : Activity → String
  | .readingSettings path => s!"Failed to read config file: {path}"
  | .parsingSettings path => s!"Failed to parse config file: {path}"
  | .parsingVariable =>
      "Failed to parse inline config from " ++ Environment.fullName "CONFIG_CONTENT"
  | .parsingText => "Failed to parse inline config content"
  | .loadingSettings (some path) => s!"Failed to load config from {path}"
  | .loadingSettings none => "Failed to load configuration"
  | .openingStore => "Failed to initialize storage"
  | .staging stem path => s!"Failed to stage {stem} into {path}"
  | .loadingRecords path => s!"Failed to load staged records from {path}"
  | .enumeratingZones => "Failed to enumerate geohashes"
  | .uploading half => s!"Failed to upload {half.name} dataset"

inductive Cause where
  | data (e : DataError)
  | storage (e : StorageError)
  | file (fault : FileFault)
  /-- A text is no TOML document of settings. -/
  | document
  | override (fault : OverrideFault)
  | setting (fault : SettingFault)
  /-- The step has more seconds than a step can have. -/
  | step (seconds : Nat)
deriving DecidableEq, Repr

/-- The texts of a cause, the outermost first. -/
def Cause.messages : Cause → List String
  | .data e => [e.message]
  | .storage e => [e.message]
  | .file fault => [fault.message]
  | .document => ["not a settings document"]
  | .override fault => fault.messages
  | .setting fault => [fault.message]
  | .step seconds => [s!"resample.step_secs {seconds} is not a usable step"]

structure Failure where
  /-- The outermost first. -/
  activities : List Activity
  cause : Cause
deriving DecidableEq, Repr

namespace Failure

def ofCause (cause : Cause) : Failure := ⟨[], cause⟩

def during (activity : Activity) (failure : Failure) : Failure :=
  ⟨activity :: failure.activities, failure.cause⟩

def messages (failure : Failure) : List String :=
  failure.activities.map Activity.message ++ failure.cause.messages

end Failure
end ZoneDemand
