import ZoneDemand.Proofs.Pipeline.Build
import ZoneDemand.Proofs.Upload.Effect

/-!
# The effect of a full run

A full run stages, builds and uploads, and stops at the first stage that fails.  On a
store in memory, every point of failure has its own set of effects already committed: only
uploading changes objects, the training file first, and only staging and the two writes
change files.
-/

namespace ZoneDemand
namespace Pipeline

theorem stage_store {s : Settings} {w later : World} {outcome : Except Failure StagingOutcome}
    (hon : (stage s).on w = (outcome, later)) : later.store = w.store := by
  unfold stage stageInto at hon
  rw [Action.on_mapFailure, Action.on_bind_of_ok (Action.on_get w),
    Action.on_bind_of_ok (Action.on_set _ w), Action.on_bind_of_ok (Action.on_report _ _),
    Action.on_ofExcept, Prod.mk.injEq] at hon
  rw [← hon.2]
  rfl

theorem stage_of_exists {s : Settings} {w : World}
    (hexists : w.files.exists? s.source.stagingFile = true) :
    ∃ entries, (stage s).on w = (.ok .skipped, w.report entries) := by
  unfold stage stageInto
  rw [Action.on_mapFailure, Action.on_bind_of_ok (Action.on_get w),
    Action.on_bind_of_ok (Action.on_set _ w), Action.on_bind_of_ok (Action.on_report _ _),
    Action.on_ofExcept]
  simp only [Staging.run, hexists, if_true, mapError_ok]
  exact ⟨_, rfl⟩

inductive BuildEffect (s : Settings) (files : FileTree) :
    Except Failure Datasets → FileTree → Prop where
  | computing {e : Failure} (hsplit : splitOutcome s files = .error e) :
      BuildEffect s files (.error e) files
  | writing {split : Split} {stats : ResampleStats} {cause : DataError} {later : FileTree}
      (hsplit : splitOutcome s files = .ok (split, stats)) :
      BuildEffect s files (.error (.ofCause (.data cause))) later
  | built {datasets : Datasets} {later : FileTree} : BuildEffect s files (.ok datasets) later

theorem writeHalf_store {s : DatasetSettings} {split : Split} {half : Half} {w later : World}
    {outcome : Except Failure DatasetFile}
    (hon : (writeHalf s split half).on w = (outcome, later)) :
    later.store = w.store ∧ ∀ e, outcome = .error e → ∃ cause, e = .ofCause (.data cause) := by
  obtain ⟨entries, hwrite⟩ := writeHalf_on s split half w
  rw [hwrite, Prod.mk.injEq] at hon
  obtain ⟨houtcome, hlater⟩ := hon
  refine ⟨by rw [← hlater]; rfl, ?_⟩
  intro e he
  rw [← houtcome] at he
  cases hresult : (halfWritten s split half w.files).2 with
  | ok file => simp [hresult] at he
  | error cause =>
      rw [hresult, mapError_error, Except.error.injEq] at he
      exact ⟨cause, he.symm⟩

theorem build_on {s : Settings} {w later : World} {outcome : Except Failure Datasets}
    (hon : (build s).on w = (outcome, later)) :
    later.store = w.store ∧ BuildEffect s w.files outcome later.files := by
  obtain ⟨entries, hreports⟩ := reports_splitDataset s w
  unfold build at hon
  cases hsplit : splitOutcome s w.files with
  | error e =>
      rw [hsplit] at hreports
      rw [Action.on_bind_of_error hreports, Prod.mk.injEq] at hon
      obtain ⟨rfl, rfl⟩ := hon
      exact ⟨rfl, .computing hsplit⟩
  | ok result =>
      obtain ⟨split, stats⟩ := result
      rw [hsplit] at hreports
      rw [Action.on_bind_of_ok hreports] at hon
      rcases Action.on_bind_cases hon with ⟨e, htrain, rfl⟩ | ⟨train, between, htrain, hon⟩
      · obtain ⟨hstore, hcause⟩ := writeHalf_store htrain
        obtain ⟨cause, rfl⟩ := hcause e rfl
        exact ⟨hstore, .writing hsplit⟩
      have hbetween := (writeHalf_store htrain).1
      rcases Action.on_bind_cases hon with ⟨e, htest, rfl⟩ | ⟨test, last, htest, hon⟩
      · obtain ⟨hstore, hcause⟩ := writeHalf_store htest
        obtain ⟨cause, rfl⟩ := hcause e rfl
        exact ⟨hstore.trans hbetween, .writing hsplit⟩
      have hlast := (writeHalf_store htest).1
      rw [Action.on_pure, Prod.mk.injEq] at hon
      obtain ⟨rfl, rfl⟩ := hon
      exact ⟨hlast.trans hbetween, .built⟩

def storedKey (s : DatasetSettings) (half : Half) : String :=
  Key.normalize (datasetKey s.stem half (s.fileName half))

/-- The store holds the local file of a half under its key. -/
def HoldsFile (s : DatasetSettings) (m : MemoryStore) (files : FileTree) (datasets : Datasets)
    (half : Half) : Prop :=
  ∃ data, files.read (datasets.file half).path = .ok data ∧ m.object? (storedKey s half) = some data

/-- What uploading both files to a store in memory has done when it ends; no file has
changed. -/
inductive UploadingEffect (s : DatasetSettings) (datasets : Datasets) (m : MemoryStore)
    (w : World) : Except Failure (List String) → World → Prop where
  | train {cause : StorageError} {later : World} (hfiles : later.files = w.files)
      (hstore : later.store = .memory m) :
      UploadingEffect s datasets m w
        (.error (.during (.uploading .train) (.ofCause (.storage cause)))) later
  | test {cause : StorageError} {written : MemoryStore} {later : World}
      (hfiles : later.files = w.files) (hstore : later.store = .memory written)
      (htrain : HoldsFile s written later.files datasets .train)
      (hothers : ∀ key, key ≠ storedKey s .train → written.object? key = m.object? key) :
      UploadingEffect s datasets m w
        (.error (.during (.uploading .test) (.ofCause (.storage cause)))) later
  | both {written : MemoryStore} {later : World}
      (hfiles : later.files = w.files) (hstore : later.store = .memory written)
      (hreported : datasetKey s.stem .train s.trainFile ≠ datasetKey s.stem .test s.testFile)
      (hkeys : storedKey s .train ≠ storedKey s .test)
      (htrain : HoldsFile s written later.files datasets .train)
      (htest : HoldsFile s written later.files datasets .test)
      (hothers : ∀ key, key ≠ storedKey s .train → key ≠ storedKey s .test →
        written.object? key = m.object? key) :
      UploadingEffect s datasets m w
        (.ok [datasetKey s.stem .train s.trainFile, datasetKey s.stem .test s.testFile]) later

/-- What a full run on a store in memory has done when it ends: the stages that have
answered are followed by the one that has failed, if any. -/
inductive RunEffect (s : Settings) (m : MemoryStore) (w : World) :
    Except Failure PipelineReport → World → Prop where
  | staging {e : Failure} {later : World} (hstage : (stage s).on w = (.error e, later))
      (hstore : later.store = .memory m) : RunEffect s m w (.error e) later
  /-- A stage of the build before the first write has failed. -/
  | computing {staged : StagingOutcome} {before later : World} {e : Failure}
      (hstage : (stage s).on w = (.ok staged, before))
      (hsplit : splitOutcome s before.files = .error e)
      (hfiles : later.files = before.files) (hstore : later.store = .memory m) :
      RunEffect s m w (.error e) later
  | writing {staged : StagingOutcome} {before later : World} {split : Split}
      {stats : ResampleStats} {cause : DataError}
      (hstage : (stage s).on w = (.ok staged, before))
      (hsplit : splitOutcome s before.files = .ok (split, stats))
      (hstore : later.store = .memory m) :
      RunEffect s m w (.error (.ofCause (.data cause))) later
  | uploading {staged : StagingOutcome} {before built later : World} {datasets : Datasets}
      {e : Failure} (hstage : (stage s).on w = (.ok staged, before))
      (hbuild : (build s).on before = (.ok datasets, built))
      (hupload : UploadingEffect s.dataset datasets m built (.error e) later) :
      RunEffect s m w (.error e) later
  | finished {staged : StagingOutcome} {before built later : World} {datasets : Datasets}
      {keys : List String} (hstage : (stage s).on w = (.ok staged, before))
      (hbuild : (build s).on before = (.ok datasets, built))
      (hupload : UploadingEffect s.dataset datasets m built (.ok keys) later) :
      RunEffect s m w (.ok ⟨staged, datasets, keys⟩) later

section Upload

variable {s : DatasetSettings} {datasets : Datasets} {half : Half} {m : MemoryStore}
  {w later : World}

theorem uploadHalf_error {e : Failure} (hstore : w.store = .memory m)
    (hon : (uploadHalf s datasets half).on w = (.error e, later)) :
    later.files = w.files ∧ later.store = .memory m ∧
      ∃ cause, e = .during (.uploading half) (.ofCause (.storage cause)) := by
  obtain ⟨hfiles, result, written, hwritten, heffect, houtcome⟩ := uploadHalf_memory hstore hon
  cases heffect with
  | @failed cause => exact ⟨hfiles, hwritten, cause, Except.error.inj houtcome⟩
  | stored _ _ _ _ => simp at houtcome

/-- An upload of a half that answers leaves its file under its key, which is that of no
directory, and every other object as it was. -/
theorem uploadHalf_ok {key : String} (hstore : w.store = .memory m)
    (hon : (uploadHalf s datasets half).on w = (.ok key, later)) :
    later.files = w.files ∧ key = datasetKey s.stem half (s.fileName half) ∧
      Key.isDirectory (storedKey s half) = false ∧
      ∃ written, later.store = .memory written ∧
        HoldsFile s written later.files datasets half ∧
        ∀ other, other ≠ storedKey s half → written.object? other = m.object? other := by
  obtain ⟨hfiles, result, written, hwritten, heffect, houtcome⟩ := uploadHalf_memory hstore hon
  cases heffect with
  | failed => simp at houtcome
  | stored hread hkey hobject hothers =>
      refine ⟨hfiles, Except.ok.inj houtcome, hkey, written, hwritten, ?_, hothers⟩
      exact ⟨_, by rw [hfiles]; exact hread, hobject⟩

theorem uploadHalf_of_no_outage {data : Bytes} (hstore : w.store = .memory m)
    (houtages : m.outages = []) (hread : w.files.read (datasets.file half).path = .ok data)
    (hkey : Key.isDirectory (storedKey s half) = false) :
    ∃ after written, (uploadHalf s datasets half).on w =
        (.ok (datasetKey s.stem half (s.fileName half)), after) ∧
      after.files = w.files ∧ after.store = .memory written ∧ written.outages = [] := by
  unfold storedKey at hkey
  have hcontains : ∃ replaces, (ObjectStore.memory m).contains w.files
      (datasetKey s.stem half (s.fileName half)) = .ok replaces := by
    simp only [ObjectStore.contains, ObjectStore.statSize, MemoryStore.size, MemoryStore.outage?,
      houtages, hkey, List.find?_nil, Option.map_none]
    by_cases hroot : Key.normalize (datasetKey s.stem half (s.fileName half)) = Key.root
    · simp [hroot]
    cases m.object? (Key.normalize (datasetKey s.stem half (s.fileName half))) <;> simp [hroot]
  have hwrite : ∃ written, m.write (Key.normalize (datasetKey s.stem half (s.fileName half))) data =
      .ok written ∧ written.outages = [] := by
    simp [MemoryStore.write, MemoryStore.outage?, hkey, houtages]
  obtain ⟨replaces, hcontains⟩ := hcontains
  obtain ⟨written, hwrite, hwritten⟩ := hwrite
  unfold uploadHalf uploadFile
  simp only [Action.on_bind, Action.on_mapFailure, Action.on_get, Action.on_set, Action.on_report,
    Action.on_ofExcept, Action.on_pure, Upload.run, hstore, hread, hcontains, ObjectStore.write,
    hwrite, mapError_ok]
  exact ⟨_, _, rfl, rfl, rfl, hwritten⟩

theorem upload_effect {outcome : Except Failure (List String)}
    (htrainName : '/' ∉ s.trainFile.toList) (htestName : '/' ∉ s.testFile.toList)
    (hstore : w.store = .memory m) (hon : (upload s datasets).on w = (outcome, later)) :
    UploadingEffect s datasets m w outcome later := by
  unfold upload at hon
  rcases Action.on_bind_cases hon with ⟨e, htrain, rfl⟩ | ⟨trainKey, between, htrain, hon⟩
  · obtain ⟨hfiles, hlater, cause, rfl⟩ := uploadHalf_error hstore htrain
    exact .train hfiles hlater
  obtain ⟨hfiles, rfl, htrainKey, first, hfirst, hholds, hothers⟩ := uploadHalf_ok hstore htrain
  rcases Action.on_bind_cases hon with ⟨e, htest, rfl⟩ | ⟨testKey, last, htest, hon⟩
  · obtain ⟨hlastFiles, hlater, cause, rfl⟩ := uploadHalf_error hfirst htest
    rw [← hlastFiles] at hholds
    exact .test (hlastFiles.trans hfiles) hlater hholds hothers
  obtain ⟨hlastFiles, rfl, htestKey, written, hwritten, hlast, hlastOthers⟩ :=
    uploadHalf_ok hfirst htest
  rw [Action.on_pure, Prod.mk.injEq] at hon
  obtain ⟨rfl, rfl⟩ := hon
  have hkeys : storedKey s .train ≠ storedKey s .test :=
    datasetKeys_ne s.stem htrainName htestName htrainKey htestKey
  have hreported : datasetKey s.stem .train s.trainFile ≠ datasetKey s.stem .test s.testFile :=
    fun hsame => hkeys (congrArg Key.normalize hsame)
  -- The second upload leaves the object of the first one alone.
  have htrainHeld : HoldsFile s written last.files datasets .train := by
    obtain ⟨data, hread, hobject⟩ := hholds
    refine ⟨data, by rw [hlastFiles]; exact hread, ?_⟩
    rw [hlastOthers _ hkeys]
    exact hobject
  refine .both (hlastFiles.trans hfiles) hwritten hreported hkeys htrainHeld hlast ?_
  intro key htrainOther htestOther
  rw [hlastOthers key htestOther, hothers key htrainOther]

end Upload

/-- A run on a store in memory that has no outage answers once it has built files that can
be read, under keys that are not those of a directory. -/
theorem run_of_no_outage {s : Settings} {m : MemoryStore} {w before built : World}
    {staged : StagingOutcome} {datasets : Datasets}
    (hstage : (stage s).on w = (.ok staged, before))
    (hbuild : (build s).on before = (.ok datasets, built))
    (hstore : built.store = .memory m) (houtages : m.outages = [])
    (hreads : ∀ half, ∃ data, built.files.read (datasets.file half).path = .ok data)
    (hkeys : ∀ half, Key.isDirectory (storedKey s.dataset half) = false) :
    ∃ report later, (run s).on w = (.ok report, later) := by
  obtain ⟨trainBytes, hreadTrain⟩ := hreads .train
  obtain ⟨testBytes, hreadTest⟩ := hreads .test
  obtain ⟨between, first, htrain, hfiles, hfirst, hfaultless⟩ :=
    uploadHalf_of_no_outage hstore houtages hreadTrain (hkeys .train)
  rw [← hfiles] at hreadTest
  obtain ⟨last, second, htest, -, -, -⟩ :=
    uploadHalf_of_no_outage hfirst hfaultless hreadTest (hkeys .test)
  unfold run upload
  rw [Action.on_bind_of_ok hstage, Action.on_bind_of_ok hbuild]
  simp only [Action.on_bind, htrain, htest, Action.on_pure, Action.on_report]
  exact ⟨_, _, rfl⟩

/-- A full run on a store in memory has, whether it answers or fails, exactly the effects
of the stages that have succeeded. -/
theorem run_effect {s : Settings} {m : MemoryStore} {w later : World}
    {outcome : Except Failure PipelineReport} (htrainName : '/' ∉ s.dataset.trainFile.toList)
    (htestName : '/' ∉ s.dataset.testFile.toList) (hmemory : w.store = .memory m)
    (hon : (run s).on w = (outcome, later)) : RunEffect s m w outcome later := by
  unfold run at hon
  rcases Action.on_bind_cases hon with ⟨e, hstage, rfl⟩ | ⟨staged, before, hstage, hon⟩
  · exact .staging hstage ((stage_store hstage).trans hmemory)
  have hbefore : before.store = .memory m := (stage_store hstage).trans hmemory
  rcases Action.on_bind_cases hon with ⟨e, hbuild, rfl⟩ | ⟨datasets, built, hbuild, hon⟩
  · obtain ⟨hstore, heffect⟩ := build_on hbuild
    have hlater : later.store = .memory m := hstore.trans hbefore
    -- Both effects speak of the files alone.
    generalize hfiles : later.files = files at heffect
    cases heffect with
    | computing hsplit => exact .computing hstage hsplit hfiles hlater
    | writing hsplit => exact .writing hstage hsplit hlater
  have hbuilt : built.store = .memory m := (build_on hbuild).1.trans hbefore
  rcases Action.on_bind_cases hon with ⟨e, hupload, rfl⟩ | ⟨keys, uploaded, hupload, hon⟩
  · exact .uploading hstage hbuild (upload_effect htrainName htestName hbuilt hupload)
  have heffect := upload_effect htrainName htestName hbuilt hupload
  rw [Action.on_bind_of_ok (Action.on_report _ _), Action.on_pure, Prod.mk.injEq] at hon
  obtain ⟨rfl, rfl⟩ := hon
  cases heffect with
  | both hfiles hstore hreported hkeys htrain htest hothers =>
      exact .finished hstage hbuild
        (.both hfiles hstore hreported hkeys htrain htest hothers)

theorem sample_run_effect :
    ∃ report later, (run (sampleSettings "train.json")).on sampleWorld = (.ok report, later) ∧
      RunEffect (sampleSettings "train.json") .empty sampleWorld (.ok report) later := by
  have hexists : sampleWorld.files.exists? "source.csv" = true := by decide +kernel
  obtain ⟨entries, hstage⟩ := stage_of_exists (s := sampleSettings "train.json") hexists
  have hwriteTrain : (halfWritten (sampleSettings "train.json").dataset sampleSplit .train
      sampleWorld.files).2 = .ok ⟨"./train.json", 1, 45⟩ := by decide +kernel
  have hwriteTest : (halfWritten (sampleSettings "train.json").dataset sampleSplit .test
      (halfWritten (sampleSettings "train.json").dataset sampleSplit .train
        sampleWorld.files).1).2 = .ok ⟨"./test.json", 1, 47⟩ := by decide +kernel
  obtain ⟨built, hbuild, hfiles⟩ := build_of_written (w := sampleWorld.report entries)
    (splitOutcome_sample "train.json") hwriteTrain hwriteTest
  have hreads : ∀ half, ∃ data, built.files.read (outputPath (sampleSettings "train.json").dataset
      half) = .ok data := by
    rw [hfiles, World.files_report]
    intro half
    refine ⟨fileBytes (sampleSettings "train.json").dataset sampleSplit half, ?_⟩
    cases half <;> decide +kernel
  have hreports : ∀ half, ∃ data, built.files.read
      (Datasets.file ⟨⟨"./train.json", 1, 45⟩, ⟨"./test.json", 1, 47⟩, ⟨1, 2, 2, 0⟩⟩ half).path =
        .ok data := by
    intro half
    cases half with
    | train => exact hreads .train
    | test => exact hreads .test
  have hkeys : ∀ half, Key.isDirectory
      (storedKey (sampleSettings "train.json").dataset half) = false := by
    intro half
    cases half <;> decide +kernel
  obtain ⟨report, later, hrun⟩ := run_of_no_outage hstage hbuild (build_on hbuild).1 rfl
    hreports hkeys
  exact ⟨report, later, hrun, run_effect (by decide +kernel) (by decide +kernel) rfl hrun⟩

end Pipeline
end ZoneDemand
