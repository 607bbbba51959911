import ZoneDemand.Settings.Overrides

/-!
# What the environment overrides

Every override either takes the value of its variable or fails, whatever the settings are.
A list of overrides takes effect as a whole exactly if every value that is there can be
read; section by section, a setting then has the value of its variable, or keeps its own.
-/

namespace ZoneDemand

/-! ## Values of variables -/

/-- The value of a text, if it has one. -/
def valueOf? {ε α : Type} (parse : String → Except ε α) (text : String) : Option α :=
  (parse text).toOption

def countOf? : String → Option Nat := valueOf? (parseUnsigned maxCount)

def flagOf? (text : String) : Option Bool :=
  if text = "true" then some true else if text = "false" then some false else none

namespace Environment

variable {α : Type}

/-- The value of a variable of this program, if it has one that can be read. -/
def read? (env : Environment) (key : String) (parse : String → Option α) : Option α :=
  (env.own? key).bind parse

/-- The variable has no value, or one that can be read. -/
def Reads (env : Environment) (key : String) (parse : String → Option α) : Prop :=
  ∀ text, env.own? key = some text → (parse text).isSome

/-- All values that have a type can be read. -/
structure Readable (env : Environment) : Prop where
  chunkBytes : env.Reads "SOURCE_CHUNK_BYTES" countOf?
  horizon : env.Reads "PREDICTION_LENGTH" countOf?
  categories : env.Reads "EMIT_CATEGORIES" flagOf?
  stepSeconds : env.Reads "RESAMPLE_STEP_SECS" countOf?
  policy : env.Reads "RESAMPLE_POLICY" (valueOf? ResamplePolicy.parse)
  backend : env.Reads "STORAGE_BACKEND" (valueOf? Backend.parse)
  format : env.Reads "LOG_FORMAT" (valueOf? LogFormat.parse)

end Environment

/-! ## One override -/

/-- The override takes the values that can be read and fails on all others. -/
structure Override.Sets {α : Type} (o : Override) (parse : String → Option α)
    (set : α → Settings → Settings) : Prop where
  taken : ∀ text v, parse text = some v → ∀ s, o.change text s = .ok (set v s)
  refused : ∀ text, parse text = none → ∀ s, ∃ fault, o.change text s = .error fault

namespace Override

theorem sets_ofText (key : String) (set : String → Settings → Settings) :
    (ofText key set).Sets some set := by
  constructor
  · rintro text v ⟨⟩ s
    rfl
  · rintro text ⟨⟩

theorem sets_of_parse {ε α : Type} {o : Override} {parse : String → Except ε α}
    {set : α → Settings → Settings} (fault : ε → OverrideFault)
    (hchange : ∀ text s, o.change text s =
      match parse text with
      | .ok v => .ok (set v s)
      | .error e => .error (fault e)) :
    o.Sets (valueOf? parse) set := by
  constructor
  · intro text v hv s
    rw [hchange]
    cases hparse : parse text with
    | error e => simp [valueOf?, hparse, Except.toOption] at hv
    | ok w =>
        simp only [valueOf?, hparse, Except.toOption, Option.some.injEq] at hv
        rw [hv]
  · intro text hnone s
    rw [hchange]
    cases hparse : parse text with
    | error e => exact ⟨fault e, rfl⟩
    | ok w => simp [valueOf?, hparse, Except.toOption] at hnone

theorem sets_ofNumber (key : String) (set : Nat → Settings → Settings) :
    (ofNumber key set).Sets countOf? set :=
  sets_of_parse (.number key) fun text s => by
    simp only [ofNumber]
    cases parseUnsigned maxCount text <;> rfl

theorem sets_ofChoice {α : Type} (key : String) (parse : String → Except NameFault α)
    (set : α → Settings → Settings) :
    (ofChoice key parse set).Sets (valueOf? parse) set :=
  sets_of_parse (.choice key) fun text s => by
    simp only [ofChoice]
    cases parse text <;> rfl

theorem sets_ofFlag (key : String) (set : Bool → Settings → Settings) :
    (ofFlag key set).Sets flagOf? set := by
  constructor
  · intro text b hb s
    unfold flagOf? at hb
    simp only [ofFlag]
    split at hb
    · rw [if_pos ‹_›, Option.some.inj hb]
    · rw [if_neg ‹_›]
      split at hb
      · rw [if_pos ‹_›, Option.some.inj hb]
      · simp at hb
  · intro text hnone s
    unfold flagOf? at hnone
    simp only [ofFlag]
    split at hnone
    · simp at hnone
    · rw [if_neg ‹_›]
      split at hnone
      · simp at hnone
      · rw [if_neg ‹_›]
        exact ⟨_, rfl⟩

end Override

/-! ## Many overrides -/

/-- A change by a value, if there is one. -/
def changeBy {σ α : Type} (value : Option α) (set : α → σ → σ) (x : σ) : σ :=
  match value with
  | none => x
  | some v => set v x

/-- The overrides take effect together, as `change`, if all values can be read, and one of
them fails otherwise. -/
structure Applies (env : Environment) (os : List Override) (readable : Prop)
    (change : Settings → Settings) : Prop where
  taken : readable → ∀ s, Settings.applyAll env os s = (change s, none)
  refused : ¬readable → ∀ s, ∃ fault, (Settings.applyAll env os s).2 = some fault

namespace Applies

variable {env : Environment} {os others : List Override} {readable other : Prop}
  {change next : Settings → Settings}

theorem nil : Applies env [] True id :=
  ⟨fun _ _ => rfl, fun h => absurd trivial h⟩

theorem applyAll_append (env : Environment) (os others : List Override) (s : Settings) :
    Settings.applyAll env (os ++ others) s =
      match Settings.applyAll env os s with
      | (t, none) => Settings.applyAll env others t
      | (t, some fault) => (t, some fault) := by
  induction os generalizing s with
  | nil => rfl
  | cons o os ih =>
      rw [List.cons_append, Settings.applyAll, Settings.applyAll]
      cases o.apply env s with
      | ok t => exact ih t
      | error fault => rfl

theorem append (h : Applies env os readable change) (hother : Applies env others other next) :
    Applies env (os ++ others) (readable ∧ other) (next ∘ change) := by
  constructor
  · rintro ⟨hread, hrest⟩ s
    rw [applyAll_append, h.taken hread]
    exact hother.taken hrest _
  · intro hnot s
    rw [applyAll_append]
    by_cases hread : readable
    · rw [h.taken hread]
      exact hother.refused (fun hrest => hnot ⟨hread, hrest⟩) _
    · obtain ⟨fault, hfault⟩ := h.refused hread s
      generalize Settings.applyAll env os s = first at hfault
      obtain ⟨t, stop⟩ := first
      simp only at hfault
      subst hfault
      exact ⟨fault, rfl⟩

/-- An override changes the settings by the value of its variable. -/
theorem single {α : Type} {o : Override} {parse : String → Option α}
    {set : α → Settings → Settings} (hsets : o.Sets parse set) (env : Environment) :
    Applies env [o] (∀ text, o.source.value? env = some text → (parse text).isSome)
      (changeBy ((o.source.value? env).bind parse) set) := by
  constructor
  · intro hread s
    simp only [Settings.applyAll, Override.apply]
    cases hvalue : o.source.value? env with
    | none => rfl
    | some text =>
        obtain ⟨v, hv⟩ := Option.isSome_iff_exists.mp (hread text hvalue)
        simp [hsets.taken text v hv, hv, changeBy]
  · intro hnot s
    simp only [Classical.not_forall, Option.not_isSome_iff_eq_none] at hnot
    obtain ⟨text, hvalue, hnone⟩ := hnot
    obtain ⟨fault, hfault⟩ := hsets.refused text hnone s
    exact ⟨fault, by simp [Settings.applyAll, Override.apply, hvalue, hfault]⟩

theorem cons {α : Type} {o : Override} {parse : String → Option α}
    {set : α → Settings → Settings} (hsets : o.Sets parse set)
    (h : Applies env os readable change) :
    Applies env (o :: os)
      ((∀ text, o.source.value? env = some text → (parse text).isSome) ∧ readable)
      (change ∘ changeBy ((o.source.value? env).bind parse) set) :=
  (single hsets env).append h

/-- The same in other words. -/
theorem congr (h : Applies env os readable change) (hreadable : other ↔ readable)
    (hchange : ∀ s, next s = change s) : Applies env os other next := by
  rw [propext hreadable, funext hchange]
  exact h

end Applies

/-! ## The sections -/

def SourceSettings.overridden (env : Environment) (s : SourceSettings) : SourceSettings where
  stem := ((env.own? "SOURCE_PREFIX").map sourceStem).getD s.stem
  stagingFile := (env.own? "STAGING_FILE").getD s.stagingFile
  chunkBytes := (env.read? "SOURCE_CHUNK_BYTES" countOf?).getD s.chunkBytes

def DatasetSettings.overridden (env : Environment) (s : DatasetSettings) : DatasetSettings where
  stem := ((env.own? "DATASET_PREFIX").map datasetStem).getD s.stem
  trainFile := (env.own? "TRAIN_FILE").getD s.trainFile
  testFile := (env.own? "TEST_FILE").getD s.testFile
  outputDirectory := (env.own? "OUTPUT_DIR").getD s.outputDirectory
  horizon := (env.read? "PREDICTION_LENGTH" countOf?).getD s.horizon
  categories := (env.read? "EMIT_CATEGORIES" flagOf?).getD s.categories

def ResampleSettings.overridden (env : Environment) (s : ResampleSettings) : ResampleSettings where
  stepSeconds := (env.read? "RESAMPLE_STEP_SECS" countOf?).getD s.stepSeconds
  policy := (env.read? "RESAMPLE_POLICY" (valueOf? ResamplePolicy.parse)).getD s.policy

def LoggingSettings.overridden (env : Environment) (s : LoggingSettings) : LoggingSettings where
  level := (env.own? "LOG_LEVEL").getD s.level
  format := (env.read? "LOG_FORMAT" (valueOf? LogFormat.parse)).getD s.format

namespace StorageSettings

/-- There is a bucket section, a variable for one, or a shared region for a bucket in use. -/
def HasBucket (env : Environment) (backend : Backend) (own : Option BucketSettings) : Prop :=
  own.isSome ∨ (env.own? "S3_BUCKET").isSome ∨ (env.own? "S3_REGION").isSome ∨
    (env.own? "S3_ENDPOINT").isSome ∨ (backend = .bucket ∧ (env.shared? "AWS_REGION").isSome)

instance (env : Environment) (backend : Backend) (own : Option BucketSettings) :
    Decidable (HasBucket env backend own) :=
  inferInstanceAs (Decidable (_ ∨ _))

/-- The region of this program, or the one that is there unless it is empty, or else the one
that programs share, where a bucket is in use, has a section or is named. -/
def region (env : Environment) (backend : Backend) (own : Option BucketSettings) : String :=
  match env.own? "S3_REGION" with
  | some region => region
  | none =>
      if (own.map BucketSettings.region).getD "" ≠ "" then
        (own.map BucketSettings.region).getD ""
      else if backend = .bucket ∨ own.isSome ∨ (env.own? "S3_BUCKET").isSome then
        (env.shared? "AWS_REGION").getD ""
      else ""

def bucketSection (env : Environment) (backend : Backend) (own : Option BucketSettings) :
    Option BucketSettings :=
  if HasBucket env backend own then
    some
      { bucket := (env.own? "S3_BUCKET").getD ((own.map BucketSettings.bucket).getD "")
        region := region env backend own
        endpoint := env.own? "S3_ENDPOINT" <|> own.bind BucketSettings.endpoint }
  else none

def overridden (env : Environment) (s : StorageSettings) : StorageSettings where
  backend := (env.read? "STORAGE_BACKEND" (valueOf? Backend.parse)).getD s.backend
  directory := (env.own? "STORAGE_PATH").map DirectorySettings.mk <|> s.directory
  bucket := bucketSection env
    ((env.read? "STORAGE_BACKEND" (valueOf? Backend.parse)).getD s.backend) s.bucket

end StorageSettings

def Settings.overridden (env : Environment) (s : Settings) : Settings :=
  ⟨s.source.overridden env, s.dataset.overridden env, s.resample.overridden env,
    s.storage.overridden env, s.logging.overridden env⟩

/-- Changes of a section compose to changes of the section. -/
def IsSection {σ : Type} (on : (σ → σ) → Settings → Settings) : Prop :=
  ∀ f g s, on f (on g s) = on (f ∘ g) s

theorem IsSection.cons {σ α : Type} {on : (σ → σ) → Settings → Settings} (hon : IsSection on)
    {env : Environment} {o : Override} {os : List Override} {parse : String → Option α}
    {set : α → σ → σ} {readable : Prop} {change : σ → σ}
    (hsets : o.Sets parse fun v => on (set v)) (h : Applies env os readable (on change)) :
    Applies env (o :: os)
      ((∀ text, o.source.value? env = some text → (parse text).isSome) ∧ readable)
      (on (change ∘ changeBy ((o.source.value? env).bind parse) set)) := by
  refine (h.cons hsets).congr Iff.rfl fun s => ?_
  cases (o.source.value? env).bind parse with
  | none => rfl
  | some v => exact (hon change (set v) s).symm

section Sections

variable (env : Environment)

theorem applies_source :
    Applies env Settings.sourceOverrides (env.Reads "SOURCE_CHUNK_BYTES" countOf?)
      (Settings.onSource (·.overridden env)) := by
  have hsection : IsSection Settings.onSource := fun _ _ _ => rfl
  have hlast : Applies env [] True (Settings.onSource id) := .nil
  refine (hsection.cons (Override.sets_ofText _ _) (hsection.cons (Override.sets_ofText _ _)
    (hsection.cons (Override.sets_ofNumber _ _) hlast))).congr ?_ fun s => ?_
  · simp [Override.ofText, Override.ofNumber, Variable.value?, Environment.Reads]
  · apply congrArg (Settings.onSource · s)
    funext ⟨stem, stagingFile, chunkBytes⟩
    simp only [Override.ofText, Override.ofNumber, Variable.value?, SourceSettings.overridden,
      Environment.read?]
    cases env.own? "SOURCE_PREFIX" <;> cases env.own? "STAGING_FILE" <;>
      cases (env.own? "SOURCE_CHUNK_BYTES").bind countOf? <;> rfl

theorem applies_dataset :
    Applies env Settings.datasetOverrides
      (env.Reads "PREDICTION_LENGTH" countOf? ∧ env.Reads "EMIT_CATEGORIES" flagOf?)
      (Settings.onDataset (·.overridden env)) := by
  have hsection : IsSection Settings.onDataset := fun _ _ _ => rfl
  have hlast : Applies env [] True (Settings.onDataset id) := .nil
  refine (hsection.cons (Override.sets_ofText _ _) (hsection.cons (Override.sets_ofText _ _)
    (hsection.cons (Override.sets_ofText _ _) (hsection.cons (Override.sets_ofText _ _)
    (hsection.cons (Override.sets_ofNumber _ _) (hsection.cons (Override.sets_ofFlag _ _)
      hlast)))))).congr ?_ fun s => ?_
  · simp [Override.ofText, Override.ofNumber, Override.ofFlag, Variable.value?,
      Environment.Reads]
  · apply congrArg (Settings.onDataset · s)
    funext x
    simp only [Override.ofText, Override.ofNumber, Override.ofFlag, Variable.value?,
      DatasetSettings.overridden, Environment.read?]
    cases env.own? "DATASET_PREFIX" <;> cases env.own? "TRAIN_FILE" <;>
      cases env.own? "TEST_FILE" <;> cases env.own? "OUTPUT_DIR" <;>
      cases (env.own? "PREDICTION_LENGTH").bind countOf? <;>
      cases (env.own? "EMIT_CATEGORIES").bind flagOf? <;> rfl

theorem applies_resample :
    Applies env Settings.resampleOverrides
      (env.Reads "RESAMPLE_STEP_SECS" countOf? ∧
        env.Reads "RESAMPLE_POLICY" (valueOf? ResamplePolicy.parse))
      (Settings.onResample (·.overridden env)) := by
  have hsection : IsSection Settings.onResample := fun _ _ _ => rfl
  have hlast : Applies env [] True (Settings.onResample id) := .nil
  have hpolicy := Override.sets_ofChoice "RESAMPLE_POLICY" ResamplePolicy.parse fun p =>
    Settings.onResample ({ · with policy := p })
  refine (hsection.cons (Override.sets_ofNumber _ _) (hsection.cons hpolicy hlast)).congr ?_
    fun s => ?_
  · simp [Override.ofChoice, Override.ofNumber, Variable.value?, Environment.Reads]
  · apply congrArg (Settings.onResample · s)
    funext ⟨stepSeconds, policy⟩
    simp only [Override.ofChoice, Override.ofNumber, Variable.value?,
      ResampleSettings.overridden, Environment.read?]
    cases (env.own? "RESAMPLE_STEP_SECS").bind countOf? <;>
      cases (env.own? "RESAMPLE_POLICY").bind (valueOf? ResamplePolicy.parse) <;>
      rfl

theorem changeBy_backend (value : Option Backend) (backend : Backend)
    (directory : Option DirectorySettings) (bucket : Option BucketSettings) :
    changeBy value (fun b (x : StorageSettings) => { x with backend := b })
      ⟨backend, directory, bucket⟩ = ⟨value.getD backend, directory, bucket⟩ := by
  cases value <;> rfl

theorem changeBy_path (value : Option String) (backend : Backend)
    (directory : Option DirectorySettings) (bucket : Option BucketSettings) :
    changeBy (value.bind some) (fun v (x : StorageSettings) => x.setPath v)
      ⟨backend, directory, bucket⟩ =
        ⟨backend, value.map DirectorySettings.mk <|> directory, bucket⟩ := by
  cases value <;> rfl

/-- The variables of the bucket, in their order. -/
theorem changeBy_bucket (backend : Backend) (directory : Option DirectorySettings)
    (bucket : Option BucketSettings) :
    changeBy ((env.own? "S3_ENDPOINT").bind some)
      (fun v (x : StorageSettings) => x.changeBucket ({ · with endpoint := some v }))
      (changeBy
        ((if (env.own? "S3_REGION").isSome then none else env.shared? "AWS_REGION").bind some)
        (fun v x => x.fillRegion v)
        (changeBy ((env.own? "S3_REGION").bind some)
          (fun v x => x.changeBucket ({ · with region := v }))
          (changeBy ((env.own? "S3_BUCKET").bind some)
            (fun v x => x.changeBucket ({ · with bucket := v }))
            ⟨backend, directory, bucket⟩))) =
      ⟨backend, directory, StorageSettings.bucketSection env backend bucket⟩ := by
  cases hname : env.own? "S3_BUCKET" <;> cases hregion : env.own? "S3_REGION" <;>
    cases hendpoint : env.own? "S3_ENDPOINT" <;> cases hshared : env.shared? "AWS_REGION" <;>
    simp only [changeBy, StorageSettings.changeBucket, StorageSettings.fillRegion,
      StorageSettings.bucketSection, StorageSettings.HasBucket, StorageSettings.region, hname,
      hregion, hendpoint, hshared]
  all_goals
    rcases bucket with _ | ⟨name, region, endpoint⟩
    · cases backend <;> simp
    · by_cases hempty : region = "" <;> simp [hempty]

theorem applies_storage :
    Applies env Settings.storageOverrides (env.Reads "STORAGE_BACKEND" (valueOf? Backend.parse))
      (Settings.onStorage (·.overridden env)) := by
  have hsection : IsSection Settings.onStorage := fun _ _ _ => rfl
  have hlast : Applies env [] True (Settings.onStorage id) := .nil
  have hshared : (Override.mk (.fallback "AWS_REGION" "S3_REGION") fun v s =>
      .ok (Settings.onStorage (·.fillRegion v) s)).Sets some
        fun v => Settings.onStorage (·.fillRegion v) := by
    constructor
    · rintro text v ⟨⟩ s
      rfl
    · rintro text ⟨⟩
  refine (hsection.cons (Override.sets_ofChoice _ _ _) (hsection.cons (Override.sets_ofText _ _)
    (hsection.cons (Override.sets_ofText _ _) (hsection.cons (Override.sets_ofText _ _)
    (hsection.cons hshared (hsection.cons (Override.sets_ofText _ _)
      hlast)))))).congr ?_ fun s => ?_
  · simp [Override.ofText, Override.ofChoice, Variable.value?, Environment.Reads]
  · apply congrArg (Settings.onStorage · s)
    funext ⟨backend, directory, bucket⟩
    simp only [Override.ofText, Override.ofChoice, Variable.value?, Function.comp_apply,
      changeBy_backend, changeBy_path, changeBy_bucket]
    rfl

theorem applies_logging :
    Applies env Settings.loggingOverrides (env.Reads "LOG_FORMAT" (valueOf? LogFormat.parse))
      (Settings.onLogging (·.overridden env)) := by
  have hsection : IsSection Settings.onLogging := fun _ _ _ => rfl
  have hlast : Applies env [] True (Settings.onLogging id) := .nil
  refine (hsection.cons (Override.sets_ofText _ _)
    (hsection.cons (Override.sets_ofChoice _ _ _) hlast)).congr ?_ fun s => ?_
  · simp [Override.ofChoice, Override.ofText, Variable.value?, Environment.Reads]
  · apply congrArg (Settings.onLogging · s)
    funext ⟨level, format⟩
    simp only [Override.ofChoice, Override.ofText, Variable.value?, LoggingSettings.overridden,
      Environment.read?]
    cases env.own? "LOG_LEVEL" <;>
      cases (env.own? "LOG_FORMAT").bind (valueOf? LogFormat.parse) <;> rfl

/-- The environment overrides all sections, unless it has a value that cannot be read. -/
theorem applies_overrides :
    Applies env Settings.overrides env.Readable (Settings.overridden env) := by
  have hsections := ((((applies_source env).append (applies_dataset env)).append
    (applies_resample env)).append (applies_storage env)).append (applies_logging env)
  refine hsections.congr ⟨?_, ?_⟩ fun s => rfl
  · rintro ⟨hchunk, hhorizon, hcategories, hstep, hpolicy, hbackend, hformat⟩
    exact ⟨⟨⟨⟨hchunk, hhorizon, hcategories⟩, hstep, hpolicy⟩, hbackend⟩, hformat⟩
  · rintro ⟨⟨⟨⟨hchunk, hhorizon, hcategories⟩, hstep, hpolicy⟩, hbackend⟩, hformat⟩
    exact ⟨hchunk, hhorizon, hcategories, hstep, hpolicy, hbackend, hformat⟩

end Sections

/-- The shared region fills the section that the name of the bucket has made. -/
example :
    (StorageSettings.default.overridden
      (.ofKeys [("S3_BUCKET", "pickups")] [("AWS_REGION", "us-west-2")])).bucket =
        some ⟨"pickups", "us-west-2", none⟩ := by
  rfl

end ZoneDemand
