import ZoneDemand.Proofs.Dataset.Files
import ZoneDemand.Proofs.Instant.Order
import ZoneDemand.Proofs.Zones.Sorting

/-!
# Building the datasets

A build that answers has written both files.  Its second write goes through a file whose
name is that of the test file with `.tmp` behind it; a training file of that name is
overwritten and moved away, every other one is still there at the end.
-/

namespace ZoneDemand
namespace Pipeline

theorem build_eq_ok {s : Settings} {w later : World} {datasets : Datasets}
    (hbuild : (build s).on w = (.ok datasets, later)) :
    ∃ split start between, splitOutcome s w.files = .ok (split, datasets.stats) ∧
      start.files = w.files ∧
      (writeHalf s.dataset split .train).on start = (.ok (datasets.file .train), between) ∧
      (writeHalf s.dataset split .test).on between = (.ok (datasets.file .test), later) := by
  unfold build at hbuild
  obtain ⟨⟨split, stats⟩, start, hsplit, hbuild⟩ := Action.on_bind_eq_ok hbuild
  obtain ⟨train, between, htrain, hbuild⟩ := Action.on_bind_eq_ok hbuild
  obtain ⟨test, last, htest, hbuild⟩ := Action.on_bind_eq_ok hbuild
  rw [Action.on_pure, Prod.mk.injEq, Except.ok.injEq] at hbuild
  obtain ⟨rfl, rfl⟩ := hbuild
  obtain ⟨entries, hreports⟩ := reports_splitDataset s w
  rw [hreports, Prod.mk.injEq] at hsplit
  obtain ⟨houtcome, rfl⟩ := hsplit
  exact ⟨split, _, between, houtcome, World.files_report w entries, htrain, htest⟩

/-- A build whose stages answer on the files that they find does answer. -/
theorem build_of_written {s : Settings} {w : World} {split : Split} {stats : ResampleStats}
    {train test : DatasetFile}
    (hsplit : splitOutcome s w.files = .ok (split, stats))
    (htrain : (halfWritten s.dataset split .train w.files).2 = .ok train)
    (htest : (halfWritten s.dataset split .test
      (halfWritten s.dataset split .train w.files).1).2 = .ok test) :
    ∃ later, (build s).on w = (.ok ⟨train, test, stats⟩, later) ∧
      later.files = (halfWritten s.dataset split .test
        (halfWritten s.dataset split .train w.files).1).1 := by
  obtain ⟨entries, hreports⟩ := reports_splitDataset s w
  obtain ⟨firstEntries, hfirst⟩ := writeHalf_on s.dataset split .train (w.report entries)
  rw [World.files_report, htrain] at hfirst
  generalize (halfWritten s.dataset split .train w.files).1 = between at *
  obtain ⟨lastEntries, hlast⟩ := writeHalf_on s.dataset split .test
    { (w.report entries).report firstEntries with files := between }
  rw [htest] at hlast
  generalize (halfWritten s.dataset split .test between).1 = last at *
  rw [hsplit] at hreports
  unfold build
  rw [Action.on_bind_of_ok hreports, Action.on_bind_of_ok hfirst, Action.on_bind_of_ok hlast,
    Action.on_pure]
  exact ⟨_, rfl, rfl⟩

section Names

variable {s : DatasetSettings} {half : Half} (hname : Path.Ordinary (s.fileName half))
include hname

theorem fileName?_outputPath : Path.fileName? (outputPath s half) = some (s.fileName half) :=
  Path.fileName?_append_name s.outputDirectory hname

theorem steps_outputPath :
    Path.steps (outputPath s half) = Path.steps s.outputDirectory ++ [s.fileName half] :=
  Path.steps_append_name s.outputDirectory hname

theorem steps_temporaryPath :
    Path.steps (DatasetFile.temporaryPath (outputPath s half)) =
      Path.steps s.outputDirectory ++ [s.fileName half ++ ".tmp"] := by
  obtain ⟨before, hsteps, hsibling⟩ := Path.steps_sibling (fileName?_outputPath hname)
    (show '/' ∉ ".tmp".toList by decide) (by decide)
  rw [steps_outputPath hname] at hsteps
  rw [DatasetFile.temporaryPath, hsibling, (List.append_inj' hsteps rfl).1]

theorem isAbsolute_temporaryPath :
    Path.isAbsolute (DatasetFile.temporaryPath (outputPath s half)) =
      Path.isAbsolute s.outputDirectory := by
  rw [DatasetFile.temporaryPath,
    Path.isAbsolute_sibling (fileName?_outputPath hname) (by decide) (by decide)]
  exact Path.isAbsolute_append_name s.outputDirectory hname

end Names

/-- The first of two files outlives the writing of the second, unless it bears the name
under which that is constructed. -/
theorem read_train_iff {s : DatasetSettings} (hvalid : s.fault? = none)
    {first between later : FileTree} {trainBytes testBytes : Bytes}
    {source place lastSource lastPlace : Location}
    (htrain : DatasetFile.Written first between (outputPath s .train) trainBytes source place)
    (htest : DatasetFile.Written between later (outputPath s .test) testBytes
      lastSource lastPlace) :
    later.read (outputPath s .train) = .ok trainBytes ↔ s.trainFile ≠ s.testFile ++ ".tmp" := by
  have htrainName := FileTree.ordinary_of_place? (bare_fileName hvalid .train) htrain.filePlace
  have htestName := FileTree.ordinary_of_place? (bare_fileName hvalid .test) htest.filePlace
  have hplace := FileTree.place?_of_keepsDirectories htest.keepsDirectories htrain.filePlace
  have hlast : place.getLast? = some s.trainFile :=
    FileTree.last_of_place? hplace (fileName?_outputPath htrainName)
  have hlastPlace : lastPlace.getLast? = some s.testFile :=
    FileTree.last_of_place? htest.filePlace (fileName?_outputPath htestName)
  have hlastSource : lastSource.getLast? = some (s.testFile ++ ".tmp") :=
    FileTree.last_of_place? htest.sourcePlace
      (Path.fileName?_sibling (fileName?_outputPath htestName) (by decide) (by decide))
  constructor
  · intro hread hsame
    have hname : s.fileName .train = s.fileName .test ++ ".tmp" := hsame
    -- The training file is where the second file was constructed.
    have hsource : place = lastSource := by
      apply FileTree.place?_eq_of_steps _ _ hplace htest.sourcePlace
      · rw [isAbsolute_temporaryPath htestName]
        exact Path.isAbsolute_append_name s.outputDirectory htrainName
      · rw [steps_temporaryPath htestName, steps_outputPath htrainName, hname]
    have hgone : later.node? lastSource = none := by
      apply htest.gone
      rintro rfl
      exact FileTree.place?_ne_of_sibling (fileName?_outputPath htestName) (by decide)
        (by decide) htest.sourcePlace htest.filePlace
    obtain ⟨location, hlocation, hnode⟩ := FileTree.read_eq_ok_iff.mp hread
    rw [hplace, Option.some.injEq] at hlocation
    rw [← hlocation, hsource, hgone] at hnode
    simp at hnode
  · intro hnames
    rw [FileTree.read_eq_ok_iff]
    refine ⟨place, hplace, htest.others place _ ?_ ?_ htrain.node⟩
    · rintro rfl
      rw [hlastSource] at hlast
      exact hnames (Option.some.inj hlast).symm
    · rintro rfl
      rw [hlastPlace] at hlast
      exact fileNames_ne hvalid (Option.some.inj hlast).symm

/-- After a build that answers, the test file holds the lines of the test half, and the
training file those of the training half unless it bears the name under which the test
file was constructed. -/
theorem build_leaves_files {s : Settings} {w later : World} {datasets : Datasets}
    (hvalid : s.fault? = none) (hbuild : (build s).on w = (.ok datasets, later)) :
    ∃ content step split, w.files.read s.source.stagingFile = .ok content ∧
      stepOf s.resample = .ok step ∧
      Split.ofContent content step s.resample.policy s.dataset.horizon =
        .ok (split, datasets.stats) ∧
      LeavesFile s.dataset split datasets later.files .test ∧
      (LeavesFile s.dataset split datasets later.files .train ↔
        s.dataset.trainFile ≠ s.dataset.testFile ++ ".tmp") := by
  have hdataset : s.dataset.fault? = none := dataset_valid hvalid
  obtain ⟨split, start, between, hsplit, -, htrain, htest⟩ := build_eq_ok hbuild
  obtain ⟨content, step, hread, hstep, hcontent⟩ := splitOutcome_eq_ok_iff.mp hsplit
  obtain ⟨htrainFile, source, place, hfirst⟩ := writeHalf_eq_ok htrain
  obtain ⟨htestFile, lastSource, lastPlace, hsecond⟩ := writeHalf_eq_ok htest
  refine ⟨content, step, split, hread, hstep, hcontent, ?_, ?_⟩
  · rw [leavesFile_iff htestFile]
    exact hsecond.read
  · rw [leavesFile_iff htrainFile]
    exact read_train_iff hdataset hfirst hsecond

/-! ## Two intervals of one zone -/

def sampleContent : Bytes :=
  Utf8.encode "2021-12-13 00:00:00,dr5,1,x\n2021-12-13 00:10:00,dr5,2,x\n"

def sampleWorld : World where
  files := { FileTree.bare with
    entries := [(["work"], .directory), (["work", "source.csv"], .file sampleContent)] }
  store := .memory .empty
  journal := []

def sampleSettings (trainFile : String) : Settings :=
  { Settings.default with
    dataset := { DatasetSettings.default with trainFile := trainFile, horizon := 1 } }

def sampleSeries (counts : List UInt64) : Series where
  geohash := "dr5"
  start := midnight
  step := tenMinutes
  counts := counts

def sampleTable : PickupTable :=
  ⟨[⟨midnight, "dr5", 1, "x"⟩, ⟨tenPast, "dr5", 2, "x"⟩], by decide +kernel⟩

def sampleSplit : Split := ⟨[sampleSeries [1]], [sampleSeries [1, 2]], 1⟩

theorem splitOutcome_sample (trainFile : String) :
    splitOutcome (sampleSettings trainFile) sampleWorld.files =
      .ok (sampleSplit, ⟨1, 2, 2, 0⟩) := by
  rw [splitOutcome_eq_ok_iff]
  have hread : sampleWorld.files.read "source.csv" = .ok sampleContent := by decide +kernel
  have hstep : stepOf .default = .ok ⟨600000, by decide⟩ := rfl
  have hload : Pickup.ofBytes sampleContent = .ok sampleTable.rows := by decide +kernel
  have hsample : Split.ofContent sampleContent ⟨600000, by decide⟩ .exact 1 =
      .ok (sampleSplit, ⟨1, 2, 2, 0⟩) := by
    rw [Split.ofContent, PickupTable.ofBytes, hload, map_ok, ok_bind, PickupTable.ofList_rows]
    decide +kernel
  exact ⟨sampleContent, ⟨600000, by decide⟩, hread, hstep, hsample⟩

theorem sample_build_leaves_files :
    ∃ later datasets split, (build (sampleSettings "train.json")).on sampleWorld =
        (.ok datasets, later) ∧
      LeavesFile (sampleSettings "train.json").dataset split datasets later.files .test ∧
      LeavesFile (sampleSettings "train.json").dataset split datasets later.files .train := by
  have htrain : (halfWritten (sampleSettings "train.json").dataset sampleSplit .train
      sampleWorld.files).2 = .ok ⟨"./train.json", 1, 45⟩ := by decide +kernel
  have htest : (halfWritten (sampleSettings "train.json").dataset sampleSplit .test
      (halfWritten (sampleSettings "train.json").dataset sampleSplit .train
        sampleWorld.files).1).2 = .ok ⟨"./test.json", 1, 47⟩ := by decide +kernel
  obtain ⟨later, hbuild, -⟩ := build_of_written (splitOutcome_sample "train.json") htrain htest
  obtain ⟨-, -, split, -, -, -, htest, htrain⟩ :=
    build_leaves_files (s := sampleSettings "train.json") (by decide +kernel) hbuild
  exact ⟨later, _, split, hbuild, htest, htrain.mpr (by decide +kernel)⟩

/-- The training file `test.json.tmp` is valid, and gone after a build that answers. -/
theorem sample_build_moves_train_away :
    (sampleSettings "test.json.tmp").fault? = none ∧
      ∃ later datasets, (build (sampleSettings "test.json.tmp")).on sampleWorld =
          (.ok datasets, later) ∧
        later.files.exists? datasets.train.path = false := by
  refine ⟨by decide +kernel, ?_⟩
  have htrain : (halfWritten (sampleSettings "test.json.tmp").dataset sampleSplit .train
      sampleWorld.files).2 = .ok ⟨"./test.json.tmp", 1, 45⟩ := by decide +kernel
  have htest : (halfWritten (sampleSettings "test.json.tmp").dataset sampleSplit .test
      (halfWritten (sampleSettings "test.json.tmp").dataset sampleSplit .train
        sampleWorld.files).1).2 = .ok ⟨"./test.json", 1, 47⟩ := by decide +kernel
  obtain ⟨later, hbuild, hfiles⟩ :=
    build_of_written (splitOutcome_sample "test.json.tmp") htrain htest
  refine ⟨later, _, hbuild, ?_⟩
  rw [hfiles]
  decide +kernel

end Pipeline
end ZoneDemand
