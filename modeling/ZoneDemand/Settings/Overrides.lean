import ZoneDemand.Environment
import ZoneDemand.Settings.Names
import ZoneDemand.Text.Unsigned

/-!
# Settings from the environment

Most settings can be overridden by a variable.  The overrides take effect in a
fixed order; one whose value cannot be read ends them and leaves the earlier ones
in effect.
-/

namespace ZoneDemand

inductive OverrideFault where
  | number (key : String) (cause : UnsignedError)
  | flag (key : String)
  | choice (key : String) (cause : NameFault)
deriving DecidableEq, Repr

namespace OverrideFault

/-- The texts of a fault, the outermost first. -/
def messages : OverrideFault → List String
  | .number key cause => [s!"Failed to parse {Environment.fullName key}: {cause.message}"]
  | .flag key =>
      [s!"Failed to parse {Environment.fullName key} (expected bool): " ++
        "provided string was not \x60true\x60 or \x60false\x60"]
  | .choice key cause => [s!"Invalid {Environment.fullName key} value", cause.message]

end OverrideFault

inductive Variable where
  /-- A variable of this program. -/
  | own (key : String)
  /-- A variable shared with other programs, which counts only where the one of this
  program is absent. -/
  | fallback (name ownKey : String)
deriving DecidableEq, Repr

def Variable.value? (env : Environment) : Variable → Option String
  | .own key => env.own? key
  | .fallback name ownKey => if (env.own? ownKey).isSome then none else env.shared? name

/-- A variable and what its value does to the settings. -/
structure Override where
  source : Variable
  change : String → Settings → Except OverrideFault Settings

namespace Override

/-- An override by a text that is taken as it is. -/
def ofText (key : String) (set : String → Settings → Settings) : Override where
  source := .own key
  change text s := .ok (set text s)

/-- An override by a number, up to the largest count. -/
def ofNumber (key : String) (set : Nat → Settings → Settings) : Override where
  source := .own key
  change text s :=
    match parseUnsigned maxCount text with
    | .ok n => .ok (set n s)
    | .error cause => .error (.number key cause)

/-- An override by `true` or `false`. -/
def ofFlag (key : String) (set : Bool → Settings → Settings) : Override where
  source := .own key
  change text s :=
    if text = "true" then .ok (set true s)
    else if text = "false" then .ok (set false s)
    else .error (.flag key)

def ofChoice {α : Type} (key : String) (parse : String → Except NameFault α)
    (set : α → Settings → Settings) : Override where
  source := .own key
  change text s :=
    match parse text with
    | .ok choice => .ok (set choice s)
    | .error cause => .error (.choice key cause)

/-- Applies an override if the environment has a value for it. -/
def apply (o : Override) (env : Environment) (s : Settings) : Except OverrideFault Settings :=
  match o.source.value? env with
  | none => .ok s
  | some text => o.change text s

end Override

namespace StorageSettings

/-- Sets the path of the directory, adding the section if there is none. -/
def setPath (path : String) (s : StorageSettings) : StorageSettings :=
  { s with directory := some { s.directory.getD .default with path := path } }

/-- Changes the bucket section, which is empty if there is none. -/
def changeBucket (change : BucketSettings → BucketSettings) (s : StorageSettings) :
    StorageSettings :=
  { s with bucket := some (change (s.bucket.getD ⟨"", "", none⟩)) }

/-- Gives a region to a bucket in use that has none. -/
def fillRegion (region : String) (s : StorageSettings) : StorageSettings :=
  if s.backend = .bucket ∨ s.bucket.isSome then
    s.changeBucket fun b => if b.region = "" then { b with region := region } else b
  else s

end StorageSettings

namespace Settings

def onSource (change : SourceSettings → SourceSettings) (s : Settings) : Settings :=
  { s with source := change s.source }

def onDataset (change : DatasetSettings → DatasetSettings) (s : Settings) : Settings :=
  { s with dataset := change s.dataset }

def onResample (change : ResampleSettings → ResampleSettings) (s : Settings) : Settings :=
  { s with resample := change s.resample }

def onStorage (change : StorageSettings → StorageSettings) (s : Settings) : Settings :=
  { s with storage := change s.storage }

def onLogging (change : LoggingSettings → LoggingSettings) (s : Settings) : Settings :=
  { s with logging := change s.logging }

def sourceOverrides : List Override :=
  [.ofText "SOURCE_PREFIX" fun v => onSource ({ · with stem := sourceStem v }),
    .ofText "STAGING_FILE" fun v => onSource ({ · with stagingFile := v }),
    .ofNumber "SOURCE_CHUNK_BYTES" fun n => onSource ({ · with chunkBytes := n })]

def datasetOverrides : List Override :=
  [.ofText "DATASET_PREFIX" fun v => onDataset ({ · with stem := datasetStem v }),
    .ofText "TRAIN_FILE" fun v => onDataset ({ · with trainFile := v }),
    .ofText "TEST_FILE" fun v => onDataset ({ · with testFile := v }),
    .ofText "OUTPUT_DIR" fun v => onDataset ({ · with outputDirectory := v }),
    .ofNumber "PREDICTION_LENGTH" fun n => onDataset ({ · with horizon := n }),
    .ofFlag "EMIT_CATEGORIES" fun b => onDataset ({ · with categories := b })]

def resampleOverrides : List Override :=
  [.ofNumber "RESAMPLE_STEP_SECS" fun n => onResample ({ · with stepSeconds := n }),
    .ofChoice "RESAMPLE_POLICY" ResamplePolicy.parse fun p => onResample ({ · with policy := p })]

/-- The region that programs share counts only where the program's own is absent. -/
def storageOverrides : List Override :=
  [.ofChoice "STORAGE_BACKEND" Backend.parse fun b => onStorage ({ · with backend := b }),
    .ofText "STORAGE_PATH" fun v => onStorage (·.setPath v),
    .ofText "S3_BUCKET" fun v => onStorage (·.changeBucket ({ · with bucket := v })),
    .ofText "S3_REGION" fun v => onStorage (·.changeBucket ({ · with region := v })),
    { source := .fallback "AWS_REGION" "S3_REGION"
      change := fun v s => .ok (onStorage (·.fillRegion v) s) },
    .ofText "S3_ENDPOINT" fun v => onStorage (·.changeBucket ({ · with endpoint := some v }))]

def loggingOverrides : List Override :=
  [.ofText "LOG_LEVEL" fun v => onLogging ({ · with level := v }),
    .ofChoice "LOG_FORMAT" LogFormat.parse fun f => onLogging ({ · with format := f })]

/-- All overrides in the order in which they take effect. -/
def overrides : List Override :=
  sourceOverrides ++ datasetOverrides ++ resampleOverrides ++ storageOverrides ++ loggingOverrides

/-- Applies overrides up to the first that fails. -/
def applyAll (env : Environment) : List Override → Settings → Settings × Option OverrideFault
  | [], s => (s, none)
  | o :: os, s =>
      match o.apply env s with
      | .ok changed => applyAll env os changed
      | .error fault => (s, some fault)

/-- The settings under the overrides of the environment, as far as they can be
read, and the fault that ended them. -/
def override (s : Settings) (env : Environment) : Settings × Option OverrideFault :=
  applyAll env overrides s

end Settings
end ZoneDemand
