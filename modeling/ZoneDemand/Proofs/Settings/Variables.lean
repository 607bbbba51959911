import ZoneDemand.Proofs.Settings.Keys
import ZoneDemand.Proofs.Settings.Overrides
import ZoneDemand.Proofs.Text.Unsigned

/-!
# The values of variables

A variable holds a text.  Where a setting is a number, a flag or a choice, the text must
denote one: numbers in decimal digits, flags by their two words, and choices by one of their
names, whatever the case of its letters.  The environment sets something if and only if all
texts do.
-/

namespace ZoneDemand

/-! ## What texts denote -/

def IsCount (text : String) (n : Nat) : Prop :=
  Unsigned.Denotes text.toList n ∧ n ≤ maxCount

def IsFlag (text : String) (b : Bool) : Prop := (text, b) ∈ [("true", true), ("false", false)]

/-- The text is a name of the choice, but for the case of its letters. -/
def Spells {α : Type} (names : List (String × α)) (text : String) (a : α) : Prop :=
  ∃ name, (name, a) ∈ names ∧ text.toList.map smallLetter = name.toList

/-- The names by which a variable can make the choice. -/
def ResamplePolicy.spellings : List (String × ResamplePolicy) :=
  [("exact", .exact), ("reindex", .exact), ("bucket", .bucketed), ("bucketed", .bucketed)]

def Backend.spellings : List (String × Backend) :=
  [("fs", .directory), ("filesystem", .directory), ("s3", .bucket), ("aws", .bucket)]

/-- A format of the log has one name only. -/
def LogFormat.spellings : List (String × LogFormat) := [("text", .text), ("json", .json)]

theorem countOf?_eq_some_iff {text : String} {n : Nat} :
    countOf? text = some n ↔ IsCount text n := by
  rw [countOf?, valueOf?, toOption_eq_some_iff, parseUnsigned, Unsigned.parseChars_eq_ok_iff,
    IsCount]

theorem flagOf?_eq_some_iff {text : String} {b : Bool} : flagOf? text = some b ↔ IsFlag text b := by
  unfold flagOf? IsFlag
  by_cases htrue : text = "true"
  · simp [htrue, eq_comm]
  · by_cases hfalse : text = "false"
    · simp [hfalse, eq_comm]
    · simp [htrue, hfalse]

section Choices

variable {text : String}

theorem any_namesLoosely_iff {names : List String} :
    names.any (namesLoosely text) = true ↔
      ∃ name ∈ names, text.toList.map smallLetter = name.toList := by
  simp [namesLoosely]

/-- No text names both of two choices whose names are all different. -/
theorem choose_eq_ok_iff {α : Type} (text : String) (firsts seconds : List String)
    (hapart : ∀ name ∈ firsts, name ∉ seconds) (a b x : α) (fault : NameFault) :
    (if firsts.any (namesLoosely text) then .ok a
      else if seconds.any (namesLoosely text) then .ok b
      else .error fault : Except NameFault α) = .ok x ↔
      Spells (firsts.map (·, a) ++ seconds.map (·, b)) text x := by
  have hspells : Spells (firsts.map (·, a) ++ seconds.map (·, b)) text x ↔
      firsts.any (namesLoosely text) = true ∧ x = a ∨
        seconds.any (namesLoosely text) = true ∧ x = b := by
    simp only [Spells, any_namesLoosely_iff, List.mem_append, List.mem_map, Prod.mk.injEq]
    constructor
    · rintro ⟨name, ⟨_, hmem, rfl, rfl⟩ | ⟨_, hmem, rfl, rfl⟩, hname⟩
      · exact .inl ⟨⟨_, hmem, hname⟩, rfl⟩
      · exact .inr ⟨⟨_, hmem, hname⟩, rfl⟩
    · rintro (⟨⟨name, hmem, hname⟩, rfl⟩ | ⟨⟨name, hmem, hname⟩, rfl⟩)
      · exact ⟨name, .inl ⟨name, hmem, rfl, rfl⟩, hname⟩
      · exact ⟨name, .inr ⟨name, hmem, rfl, rfl⟩, hname⟩
  have hboth : ¬(firsts.any (namesLoosely text) = true ∧
      seconds.any (namesLoosely text) = true) := by
    rw [any_namesLoosely_iff, any_namesLoosely_iff]
    rintro ⟨⟨name, hmem, hname⟩, other, hother, hsame⟩
    rw [String.toList_injective (hname.symm.trans hsame)] at hmem
    exact hapart other hmem hother
  rw [hspells]
  by_cases hfirst : firsts.any (namesLoosely text) = true
  · have hsecond : seconds.any (namesLoosely text) = false := by
      simpa [hfirst] using hboth
    simp [hfirst, hsecond, eq_comm]
  · rw [if_neg hfirst]
    by_cases hsecond : seconds.any (namesLoosely text) = true
    · simp [hfirst, hsecond, eq_comm]
    · simp [hfirst, hsecond]

theorem policy_eq_some_iff {p : ResamplePolicy} :
    valueOf? ResamplePolicy.parse text = some p ↔ Spells ResamplePolicy.spellings text p := by
  have hchoose := choose_eq_ok_iff text ["exact", "reindex"] ["bucket", "bucketed"]
    (by decide) .exact .bucketed p (.policy text)
  simp only [List.any_cons, List.any_nil, Bool.or_false, Bool.or_eq_true] at hchoose
  rw [valueOf?, toOption_eq_some_iff]
  exact hchoose

theorem backend_eq_some_iff {b : Backend} :
    valueOf? Backend.parse text = some b ↔ Spells Backend.spellings text b := by
  have hchoose := choose_eq_ok_iff text ["fs", "filesystem"] ["s3", "aws"]
    (by decide) .directory .bucket b (.backend text)
  simp only [List.any_cons, List.any_nil, Bool.or_false, Bool.or_eq_true] at hchoose
  rw [valueOf?, toOption_eq_some_iff]
  exact hchoose

theorem format_eq_some_iff {f : LogFormat} :
    valueOf? LogFormat.parse text = some f ↔ Spells LogFormat.spellings text f := by
  have hchoose := choose_eq_ok_iff text ["text"] ["json"] (by decide) .text .json f
    (.format text)
  simp only [List.any_cons, List.any_nil, Bool.or_false] at hchoose
  rw [valueOf?, toOption_eq_some_iff]
  exact hchoose

end Choices

/-! ## What the environment sets -/

/-- What the environment sets of the sections that are layered key by key, and which backend
it chooses. -/
structure VariableLayer where
  source : SourceLayer
  dataset : DatasetLayer
  resample : ResampleLayer
  backend : Option Backend
  logging : LoggingLayer

/-- The layer is what the variables set.  Each that must denote a value does so. -/
structure Environment.Sets (env : Environment) (v : VariableLayer) : Prop where
  sourceStem : v.source.stem = env.own? "SOURCE_PREFIX"
  stagingFile : v.source.stagingFile = env.own? "STAGING_FILE"
  chunkBytes : Option.Rel IsCount (env.own? "SOURCE_CHUNK_BYTES") v.source.chunkBytes
  datasetStem : v.dataset.stem = env.own? "DATASET_PREFIX"
  trainFile : v.dataset.trainFile = env.own? "TRAIN_FILE"
  testFile : v.dataset.testFile = env.own? "TEST_FILE"
  outputDirectory : v.dataset.outputDirectory = env.own? "OUTPUT_DIR"
  horizon : Option.Rel IsCount (env.own? "PREDICTION_LENGTH") v.dataset.horizon
  categories : Option.Rel IsFlag (env.own? "EMIT_CATEGORIES") v.dataset.categories
  stepSeconds : Option.Rel IsCount (env.own? "RESAMPLE_STEP_SECS") v.resample.stepSeconds
  policy : Option.Rel (Spells ResamplePolicy.spellings) (env.own? "RESAMPLE_POLICY")
    v.resample.policy
  backend : Option.Rel (Spells Backend.spellings) (env.own? "STORAGE_BACKEND") v.backend
  level : v.logging.level = env.own? "LOG_LEVEL"
  format : Option.Rel (Spells LogFormat.spellings) (env.own? "LOG_FORMAT") v.logging.format

/-- The storage section over another one.  The directory is that of the variable, else the
one that is there, and of the bucket only the parts that are told change. -/
def Environment.storageOver (env : Environment) (backend : Option Backend)
    (s : StorageSettings) : StorageSettings where
  backend := backend.getD s.backend
  directory := (env.own? "STORAGE_PATH").map DirectorySettings.mk <|> s.directory
  bucket := StorageSettings.bucketSection env (backend.getD s.backend) s.bucket

section Sets

variable {env : Environment}

theorem rel_iff_reads {α : Type} {parse : String → Option α} {means : String → α → Prop}
    (hparse : ∀ {text a}, parse text = some a ↔ means text a) {key : String} {value? : Option α} :
    Option.Rel means (env.own? key) value? ↔
      env.Reads key parse ∧ env.read? key parse = value? := by
  unfold Environment.Reads Environment.read?
  cases env.own? key with
  | none =>
      cases value? with
      | none => exact iff_of_true .none ⟨by simp, rfl⟩
      | some a =>
          refine iff_of_false ?_ (by simp)
          rintro ⟨⟩
  | some text =>
      cases value? with
      | none =>
          refine iff_of_false ?_ ?_
          · rintro ⟨⟩
          · rintro ⟨hreads, hnone⟩
            have hsome := hreads text rfl
            rw [Option.bind_some] at hnone
            rw [hnone] at hsome
            contradiction
      | some a =>
          rw [Option.bind_some]
          constructor
          · intro h
            cases h with
            | some hmeans =>
                have hvalue := hparse.mpr hmeans
                refine ⟨?_, hvalue⟩
                rintro _ ⟨⟩
                rw [hvalue]
                rfl
          · rintro ⟨-, hvalue⟩
            exact .some (hparse.mp hvalue)

theorem Environment.Sets.readable {v : VariableLayer} (h : env.Sets v) : env.Readable where
  chunkBytes := ((rel_iff_reads countOf?_eq_some_iff).mp h.chunkBytes).1
  horizon := ((rel_iff_reads countOf?_eq_some_iff).mp h.horizon).1
  categories := ((rel_iff_reads flagOf?_eq_some_iff).mp h.categories).1
  stepSeconds := ((rel_iff_reads countOf?_eq_some_iff).mp h.stepSeconds).1
  policy := ((rel_iff_reads policy_eq_some_iff).mp h.policy).1
  backend := ((rel_iff_reads backend_eq_some_iff).mp h.backend).1
  format := ((rel_iff_reads format_eq_some_iff).mp h.format).1

theorem readable_iff_sets : env.Readable ↔ ∃ v, env.Sets v := by
  constructor
  · intro h
    exact
      ⟨{ source := ⟨_, _, _⟩
         dataset := ⟨_, _, _, _, _, _⟩
         resample := ⟨_, _⟩
         backend := _
         logging := ⟨_, _⟩ },
        { sourceStem := rfl
          stagingFile := rfl
          chunkBytes := (rel_iff_reads countOf?_eq_some_iff).mpr ⟨h.chunkBytes, rfl⟩
          datasetStem := rfl
          trainFile := rfl
          testFile := rfl
          outputDirectory := rfl
          horizon := (rel_iff_reads countOf?_eq_some_iff).mpr ⟨h.horizon, rfl⟩
          categories := (rel_iff_reads flagOf?_eq_some_iff).mpr ⟨h.categories, rfl⟩
          stepSeconds := (rel_iff_reads countOf?_eq_some_iff).mpr ⟨h.stepSeconds, rfl⟩
          policy := (rel_iff_reads policy_eq_some_iff).mpr ⟨h.policy, rfl⟩
          backend := (rel_iff_reads backend_eq_some_iff).mpr ⟨h.backend, rfl⟩
          level := rfl
          format := (rel_iff_reads format_eq_some_iff).mpr ⟨h.format, rfl⟩ }⟩
  · rintro ⟨v, hv⟩
    exact hv.readable

/-- The prefixes are brought into shape as they are taken. -/
theorem Settings.overridden_of_sets {v : VariableLayer} (h : env.Sets v) (base : Settings) :
    base.overridden env =
      { source :=
          { v.source.over base.source with
            stem := (v.source.stem.map sourceStem).getD base.source.stem }
        dataset :=
          { v.dataset.over base.dataset with
            stem := (v.dataset.stem.map datasetStem).getD base.dataset.stem }
        resample := v.resample.over base.resample
        storage := env.storageOver v.backend base.storage
        logging := v.logging.over base.logging } := by
  have hchunk := ((rel_iff_reads countOf?_eq_some_iff).mp h.chunkBytes).2
  have hhorizon := ((rel_iff_reads countOf?_eq_some_iff).mp h.horizon).2
  have hcategories := ((rel_iff_reads flagOf?_eq_some_iff).mp h.categories).2
  have hstep := ((rel_iff_reads countOf?_eq_some_iff).mp h.stepSeconds).2
  have hpolicy := ((rel_iff_reads policy_eq_some_iff).mp h.policy).2
  have hbackend := ((rel_iff_reads backend_eq_some_iff).mp h.backend).2
  have hformat := ((rel_iff_reads format_eq_some_iff).mp h.format).2
  simp only [Settings.overridden, SourceSettings.overridden, DatasetSettings.overridden,
    ResampleSettings.overridden, StorageSettings.overridden, LoggingSettings.overridden,
    hchunk, hhorizon, hcategories, hstep, hpolicy, hbackend, hformat, ← h.sourceStem,
    ← h.stagingFile, ← h.datasetStem, ← h.trainFile, ← h.testFile, ← h.outputDirectory,
    ← h.level]
  rfl

end Sets
end ZoneDemand
