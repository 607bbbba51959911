import ZoneDemand.Proofs.Settings.Overrides
import ZoneDemand.Proofs.Settings.Stems

/-!
# Overriding more than once

The environment puts its own values in place of those that it finds, so overriding a second
time changes nothing.  Only the shared region looks at what is there: it is asked for before
the endpoint is, and a bucket section that only the endpoint has made is found without a
region the first time and is given one the second time.
-/

namespace ZoneDemand

/-! ## Section by section -/

section Sections

variable (env : Environment)

theorem getD_getD {α : Type} (value : Option α) (x : α) :
    value.getD (value.getD x) = value.getD x := by
  cases value <;> rfl

theorem orElse_orElse {α : Type} (value other : Option α) :
    (value <|> (value <|> other)) = (value <|> other) := by
  cases value <;> rfl

namespace SourceSettings

@[simp] theorem overridden_overridden (s : SourceSettings) :
    (s.overridden env).overridden env = s.overridden env := by
  simp only [overridden, getD_getD]

theorem overridden_normalize (s : SourceSettings) :
    s.normalize.overridden env = (s.overridden env).normalize := by
  unfold overridden normalize
  cases env.own? "SOURCE_PREFIX" <;> simp

end SourceSettings

namespace DatasetSettings

@[simp] theorem overridden_overridden (s : DatasetSettings) :
    (s.overridden env).overridden env = s.overridden env := by
  simp only [overridden, getD_getD]

theorem overridden_normalize (s : DatasetSettings) :
    s.normalize.overridden env = (s.overridden env).normalize := by
  unfold overridden normalize
  cases env.own? "DATASET_PREFIX" <;> simp

end DatasetSettings

@[simp] theorem ResampleSettings.overridden_overridden (s : ResampleSettings) :
    (s.overridden env).overridden env = s.overridden env := by
  simp only [overridden, getD_getD]

@[simp] theorem LoggingSettings.overridden_overridden (s : LoggingSettings) :
    (s.overridden env).overridden env = s.overridden env := by
  simp only [overridden, getD_getD]

end Sections

/-! ## The section of the bucket -/

namespace StorageSettings

/-- Only the endpoint makes a section for a bucket that is not in use, after a region for it
has been looked for in vain. -/
structure MissesRegion (env : Environment) (s : StorageSettings) : Prop where
  endpoint : (env.own? "S3_ENDPOINT").isSome
  noName : env.own? "S3_BUCKET" = none
  noRegion : env.own? "S3_REGION" = none
  shared : (env.shared? "AWS_REGION").getD "" ≠ ""
  noSection : s.bucket = none
  notInUse : (s.overridden env).backend = .directory

section Bucket

variable {env : Environment} {backend : Backend} {own : Option BucketSettings}

theorem bucketSection_of_hasBucket (h : HasBucket env backend own) :
    bucketSection env backend own =
      some
        { bucket := (env.own? "S3_BUCKET").getD ((own.map BucketSettings.bucket).getD "")
          region := region env backend own
          endpoint := env.own? "S3_ENDPOINT" <|> own.bind BucketSettings.endpoint } :=
  if_pos h

/-- A section that is there keeps its region, unless that is empty and only the shared region
is not. -/
theorem region_some (env : Environment) (backend : Backend) (b : BucketSettings) :
    region env backend (some b) =
      (env.own? "S3_REGION").getD
        (if b.region = "" then (env.shared? "AWS_REGION").getD "" else b.region) := by
  unfold region
  cases env.own? "S3_REGION" with
  | some r => rfl
  | none => by_cases hempty : b.region = "" <;> simp [hempty]

/-- The region stays empty only where nothing told of a bucket before it was looked for. -/
theorem region_eq_empty_iff (hregion : env.own? "S3_REGION" = none)
    (hshared : (env.shared? "AWS_REGION").getD "" ≠ "") :
    region env backend own = "" ↔
      backend = .directory ∧ own = none ∧ env.own? "S3_BUCKET" = none := by
  unfold region
  simp only [hregion]
  cases own with
  | some b => by_cases hempty : b.region = "" <;> simp [hempty, hshared]
  | none => cases backend <;> cases env.own? "S3_BUCKET" <;> simp [hshared]

theorem region_again_iff (env : Environment) (backend : Backend) (own : Option BucketSettings)
    (name : String) (endpoint : Option String) :
    region env backend (some ⟨name, region env backend own, endpoint⟩) = region env backend own ↔
      ¬(env.own? "S3_REGION" = none ∧ (env.shared? "AWS_REGION").getD "" ≠ "" ∧
        backend = .directory ∧ own = none ∧ env.own? "S3_BUCKET" = none) := by
  rw [region_some]
  cases hregion : env.own? "S3_REGION" with
  | some r => simp [region, hregion]
  | none =>
      by_cases hshared : (env.shared? "AWS_REGION").getD "" = ""
      · rw [hshared]
        by_cases hempty : region env backend own = "" <;> simp [hempty]
      · rw [← region_eq_empty_iff hregion hshared]
        by_cases hempty : region env backend own = "" <;> simp [hempty, hshared]

theorem bucketSection_again_iff (env : Environment) (backend : Backend)
    (own : Option BucketSettings) :
    bucketSection env backend (bucketSection env backend own) = bucketSection env backend own ↔
      ¬((env.own? "S3_ENDPOINT").isSome ∧ env.own? "S3_REGION" = none ∧
        (env.shared? "AWS_REGION").getD "" ≠ "" ∧ backend = .directory ∧ own = none ∧
          env.own? "S3_BUCKET" = none) := by
  by_cases hbucket : HasBucket env backend own
  · rw [bucketSection_of_hasBucket hbucket, bucketSection_of_hasBucket (.inl rfl)]
    have hendpoint : (env.own? "S3_REGION" = none ∧ (env.shared? "AWS_REGION").getD "" ≠ "" ∧
        backend = .directory ∧ own = none ∧ env.own? "S3_BUCKET" = none) →
          (env.own? "S3_ENDPOINT").isSome := by
      rintro ⟨hregion, -, rfl, rfl, hname⟩
      simpa [HasBucket, hregion, hname] using hbucket
    simp only [Option.map_some, Option.getD_some, Option.bind_some, getD_getD, orElse_orElse,
      Option.some.injEq, BucketSettings.mk.injEq, true_and, and_true]
    rw [region_again_iff, not_iff_not]
    exact ⟨fun h => ⟨hendpoint h, h⟩, And.right⟩
  · have hnone : bucketSection env backend own = none := if_neg hbucket
    unfold HasBucket at hbucket
    simp only [not_or, Option.not_isSome_iff_eq_none] at hbucket
    obtain ⟨rfl, -, -, hendpoint, -⟩ := hbucket
    simp [hnone, hendpoint]

end Bucket

theorem overridden_again_iff (env : Environment) (s : StorageSettings) :
    (s.overridden env).overridden env = s.overridden env ↔ ¬s.MissesRegion env := by
  have hbucket := bucketSection_again_iff env (s.overridden env).backend s.bucket
  constructor
  · rintro hagain ⟨hendpoint, hname, hregion, hshared, hsection, hbackend⟩
    have hsame := congrArg StorageSettings.bucket hagain
    simp only [overridden, getD_getD] at hsame
    exact hbucket.mp hsame ⟨hendpoint, hregion, hshared, hbackend, hsection, hname⟩
  · intro hmisses
    have hsame := hbucket.mpr fun ⟨hendpoint, hregion, hshared, hbackend, hsection, hname⟩ =>
      hmisses ⟨hendpoint, hname, hregion, hshared, hsection, hbackend⟩
    simp only [overridden] at hsame
    simp only [overridden, getD_getD, orElse_orElse, hsame]

/-- What has been overridden has a section wherever there is an endpoint. -/
theorem not_missesRegion_overridden (env : Environment) (s : StorageSettings) :
    ¬(s.overridden env).MissesRegion env := by
  rintro ⟨hendpoint, -, -, -, hsection, -⟩
  have hbucket : HasBucket env (s.overridden env).backend s.bucket :=
    .inr (.inr (.inr (.inl hendpoint)))
  change bucketSection env (s.overridden env).backend s.bucket = none at hsection
  rw [bucketSection_of_hasBucket hbucket] at hsection
  contradiction

end StorageSettings

/-! ## The whole -/

namespace Settings

variable {env : Environment} {s t : Settings}

theorem override_eq_iff : s.override env = (t, none) ↔ env.Readable ∧ s.overridden env = t := by
  have happlies := applies_overrides env
  constructor
  · intro hoverride
    by_cases hreadable : env.Readable
    · rw [override, happlies.taken hreadable, Prod.mk.injEq] at hoverride
      exact ⟨hreadable, hoverride.1⟩
    · obtain ⟨fault, hfault⟩ := happlies.refused hreadable s
      rw [override] at hoverride
      rw [hoverride] at hfault
      contradiction
  · rintro ⟨hreadable, rfl⟩
    exact happlies.taken hreadable s

theorem overridden_again_iff (env : Environment) (s : Settings) :
    (s.overridden env).overridden env = s.overridden env ↔ ¬s.storage.MissesRegion env := by
  rw [← StorageSettings.overridden_again_iff]
  simp only [overridden, SourceSettings.overridden_overridden,
    DatasetSettings.overridden_overridden, ResampleSettings.overridden_overridden,
    LoggingSettings.overridden_overridden, Settings.mk.injEq, true_and, and_true]

theorem overridden_normalize (env : Environment) (s : Settings) :
    s.normalize.overridden env = (s.overridden env).normalize := by
  unfold normalize overridden
  rw [SourceSettings.overridden_normalize, DatasetSettings.overridden_normalize]

theorem normalize_normalize (s : Settings) : s.normalize.normalize = s.normalize := by
  simp [normalize, SourceSettings.normalize, DatasetSettings.normalize]

/-- What is done to settings that have been read, once or more often. -/
inductive Layer where
  | override
  | normalize
deriving DecidableEq

/-- Applies layers one after another, up to the first that fails. -/
def applyLayers (env : Environment) : List Layer → Settings → Settings × Option OverrideFault
  | [], s => (s, none)
  | .normalize :: layers, s => applyLayers env layers s.normalize
  | .override :: layers, s =>
      match s.override env with
      | (t, none) => applyLayers env layers t
      | (t, some fault) => (t, some fault)

theorem applyLayers_singleton (env : Environment) (s : Settings) :
    applyLayers env [.override] s = s.override env := by
  rw [applyLayers]
  rcases s.override env with ⟨t, _ | fault⟩ <;> rfl

theorem override_normalize (h : s.override env = (t, none)) :
    s.normalize.override env = (t.normalize, none) := by
  rw [override_eq_iff] at h ⊢
  exact ⟨h.1, by rw [overridden_normalize, h.2]⟩

/-- Settings that the environment no longer changes are at most brought into shape. -/
theorem applyLayers_of_settled (layers : List Layer) (hsettled : s.override env = (s, none)) :
    applyLayers env layers s = (if .normalize ∈ layers then s.normalize else s, none) := by
  induction layers generalizing s with
  | nil => rfl
  | cons layer layers ih =>
      cases layer with
      | override =>
          rw [applyLayers, hsettled]
          simpa using ih hsettled
      | normalize =>
          rw [applyLayers, ih (override_normalize hsettled), normalize_normalize]
          simp

theorem applyLayers_of_override {layers : List Layer} (hlayers : .override ∈ layers)
    (hfirst : s.override env = (t, none)) (hagain : t.override env = (t, none)) :
    applyLayers env layers s = (if .normalize ∈ layers then t.normalize else t, none) := by
  induction layers generalizing s t with
  | nil => contradiction
  | cons layer layers ih =>
      cases layer with
      | override =>
          rw [applyLayers, hfirst]
          simpa using applyLayers_of_settled layers hagain
      | normalize =>
          have hrest : .override ∈ layers := by simpa using hlayers
          rw [applyLayers, ih hrest (override_normalize hfirst) (override_normalize hagain),
            normalize_normalize]
          simp

/-- Overriding again succeeds where overriding has.  It leaves the settings as they are, and
then it does not matter how often and between which other layers it is done, if and only if
the bucket does not miss the shared region; in any case nothing changes after the second
time. -/
theorem override_again (hfirst : s.override env = (t, none)) :
    (∃ again, t.override env = (again, none) ∧ again.override env = (again, none)) ∧
    (t.override env = (t, none) ↔ ¬s.storage.MissesRegion env) ∧
    ((∀ layers, .override ∈ layers →
        applyLayers env layers s = (if .normalize ∈ layers then t.normalize else t, none)) ↔
      ¬s.storage.MissesRegion env) := by
  obtain ⟨hreadable, rfl⟩ := override_eq_iff.mp hfirst
  have hagain : (s.overridden env).override env = (s.overridden env, none) ↔
      ¬s.storage.MissesRegion env := by
    rw [override_eq_iff, overridden_again_iff]
    exact and_iff_right hreadable
  refine ⟨⟨(s.overridden env).overridden env, ?_, ?_⟩, hagain, ?_⟩
  · exact override_eq_iff.mpr ⟨hreadable, rfl⟩
  · rw [override_eq_iff, overridden_again_iff]
    exact ⟨hreadable, StorageSettings.not_missesRegion_overridden env s.storage⟩
  · rw [← hagain]
    constructor
    · intro hlayers
      have htwice := hlayers [.override, .override] (by simp)
      rw [applyLayers, hfirst] at htwice
      simpa using (applyLayers_singleton env _).symm.trans htwice
    · intro hsettled layers hlayers
      exact applyLayers_of_override hlayers hfirst hsettled

/-- A bucket that has a name besides its endpoint gets its region the first time. -/
def namedBucket : Environment :=
  .ofKeys [("S3_BUCKET", "pickups"), ("S3_ENDPOINT", "http://localhost:9000")]
    [("AWS_REGION", "eu-west-1")]

theorem namedBucket_override_again :
    ∃ t, Settings.default.override namedBucket = (t, none) ∧
      t.storage.bucket = some ⟨"pickups", "eu-west-1", some "http://localhost:9000"⟩ ∧
      t.override namedBucket = (t, none) ∧
      applyLayers namedBucket [.normalize, .override, .normalize, .override] .default =
        (t.normalize, none) := by
  have hfirst : Settings.default.override namedBucket =
      ((Settings.default.override namedBucket).1, none) := by decide +kernel
  have hmisses : ¬Settings.default.storage.MissesRegion namedBucket :=
    fun h => absurd h.noName (by decide)
  obtain ⟨-, hagain, hlayers⟩ := override_again hfirst
  refine ⟨_, hfirst, by decide +kernel, hagain.mpr hmisses, ?_⟩
  exact hlayers.mpr hmisses _ (by decide)

/-- Without a name, the section has no region after the first time and one after the
second. -/
def endpointOnly : Environment :=
  .ofKeys [("S3_ENDPOINT", "http://localhost:9000")] [("AWS_REGION", "eu-west-1")]

theorem endpointOnly_override_again :
    ∃ once again, Settings.default.override endpointOnly = (once, none) ∧
      once.override endpointOnly = (again, none) ∧
      once.storage.bucket = some ⟨"", "", some "http://localhost:9000"⟩ ∧
      again.storage.bucket = some ⟨"", "eu-west-1", some "http://localhost:9000"⟩ := by
  have hfirst : Settings.default.override endpointOnly =
      ((Settings.default.override endpointOnly).1, none) := by decide +kernel
  have hagain : (Settings.default.override endpointOnly).1.override endpointOnly =
      (((Settings.default.override endpointOnly).1.override endpointOnly).1, none) := by
    decide +kernel
  exact ⟨_, _, hfirst, hagain, by decide +kernel, by decide +kernel⟩

end Settings
end ZoneDemand
