import ZoneDemand.Proofs.Dataset.Unreadable
import ZoneDemand.Proofs.Pipeline.Rerun

/-!
# The staged file

A build keeps the staged file if none of the four local files that it writes is the same,
and one that answers keeps it only then.  Where it is kept, running again reproduces the
files and the objects of the first run.
-/

namespace ZoneDemand
namespace Pipeline

/-! ## Builds -/

/-- What a build leaves where it has written. -/
def Overwritten (s : DatasetSettings) (split : Split) (value : Option Bytes) : Prop :=
  value = none ∨ ∃ half, value = some (fileBytes s split half)

section Overwritten

variable {s : DatasetSettings} {split : Split} {tree : FileTree} {held : Site → Option Bytes}

theorem Overwritten.withHalf {site : Site} (h : Overwritten s split (held site)) (half : Half) :
    Overwritten s split (withHalf s split tree half held site) := by
  unfold Pipeline.withHalf
  by_cases houtput : site = .inl (tree.location (outputPath s half))
  · rw [houtput, Function.update_self]
    exact .inr ⟨half, rfl⟩
  rw [Function.update_of_ne houtput]
  by_cases htemporary :
      site = .inl (tree.location (DatasetFile.temporaryPath (outputPath s half)))
  · rw [htemporary, Function.update_self]
    exact .inl rfl
  · rw [Function.update_of_ne htemporary]
    exact h

theorem overwritten_output (half : Half) :
    Overwritten s split (withHalf s split tree half held
      (.inl (tree.location (outputPath s half)))) := by
  rw [withHalf, Function.update_self]
  exact .inr ⟨half, rfl⟩

theorem overwritten_temporary (half : Half) :
    Overwritten s split (withHalf s split tree half held
      (.inl (tree.location (DatasetFile.temporaryPath (outputPath s half))))) := by
  rw [withHalf, Function.update_apply]
  split
  · exact .inr ⟨half, rfl⟩
  · rw [Function.update_self]
    exact .inl rfl

theorem overwritten_of_mem (split : Split) (tree : FileTree) (held : Site → Option Bytes)
    {path : String} (hpath : path ∈ builtPaths s) :
    Overwritten s split (withHalf s split tree .test (withHalf s split tree .train held)
      (.inl (tree.location path))) := by
  simp only [builtPaths, List.mem_cons, List.not_mem_nil, or_false] at hpath
  rcases hpath with rfl | rfl | rfl | rfl
  · exact (overwritten_temporary .train).withHalf .test
  · exact (overwritten_output .train).withHalf .test
  · exact overwritten_temporary .test
  · exact overwritten_output .test

end Overwritten

/-- A build that answers keeps the staged file exactly if it writes none there. -/
theorem build_keeps_staged_iff {s : Settings} (hvalid : s.dataset.fault? = none)
    {w later : World} {datasets : Datasets}
    (hbuild : (build s).on w = (.ok datasets, later)) :
    later.files.stat s.source.stagingFile = w.files.stat s.source.stagingFile ↔
      StagedApart s w.files := by
  obtain ⟨split, hsplit, hbuilt⟩ := built_of_build hvalid hbuild
  obtain ⟨content, step, hread, -, hcontent⟩ := splitOutcome_eq_ok_iff.mp hsplit
  constructor
  · intro hstat path hpath hsame
    have hlater : later.files.read s.source.stagingFile = .ok content := by
      rw [FileTree.read_eq_ok_iff, ← FileTree.stat_eq_file_iff] at hread ⊢
      rw [hstat]
      exact hread
    have hheld : later.held (.inl (w.files.location path)) = some content := by
      rw [← hsame, ← hbuilt.keepsDirectories.location_eq]
      exact (FileTree.read_eq_ok_iff_content?.mp hlater).2
    have hover := overwritten_of_mem split w.files w.held hpath
    rw [← hbuilt.held, hheld] at hover
    rcases hover with hnone | ⟨half, hbytes⟩
    · contradiction
    · exact Split.ofContent_ne_fileBytes hcontent s.dataset split half (Option.some.inj hbytes)
  · intro hapart
    exact build_keeps_staged hapart (FileTree.exists?_eq_true_iff.mpr (.inr ⟨content, hread⟩))
      hbuild

/-! ## Running again -/

/-- The world before another run, given the one after the first. -/
inductive Resumes (s : Settings) (done again : World) : Prop where
  /-- Objects have changed in a store outside the local tree. -/
  | outside (hfiles : again.files = done.files) (hdone : done.store.directory? = none)
      (hagain : again.store.directory? = none) (hfaultless : again.store.Faultless 2)
  /-- Local files have been added, objects of a store in a local directory among them. -/
  | within (hfiles : FileTree.Extends done.files again.files)
      (hfree : ∀ half, again.files.node? (again.files.location
        (DatasetFile.temporaryPath (outputPath s.dataset half))) ≠ some .directory)
      (hdirectory : again.store.directory? = done.store.directory?)
      (hfaultless : again.store.Faultless 2)

theorem Ran.continues {s : Settings} {report : PipelineReport} {w done again : World}
    {t : Trail} (h : Ran s report w t done) (hresumes : Resumes s done again) :
    Continues s done again := by
  cases hresumes with
  | within hfiles hfree hdirectory hfaultless => exact ⟨hfiles, hfree, hdirectory, hfaultless⟩
  | outside hfiles hdone hagain hfaultless =>
      refine ⟨?_, ?_, by rw [hagain, hdone], hfaultless⟩
      · rw [hfiles]
        exact .refl done.files
      · intro half
        have hfree := h.built.free half
        rw [h.directory?_later] at hdone
        have hbetween : t.between.files = t.built.files :=
          h.storedTrain.unchanged (by rw [h.store_built, hdone])
        have hbuilt : done.files = t.built.files :=
          (h.storedTest.unchanged (by rw [h.directory?_between, hdone])).trans hbetween
        rw [hfiles, hbuilt, h.built.keepsDirectories.location_eq]
        exact hfree

/-- No object that a run uploads is kept where the staged file is. -/
def ObjectsApart (s : Settings) (w : World) : Prop :=
  ∀ d, w.store.directory? = some d → ∀ half, w.files.location s.source.stagingFile ≠
    w.files.location (d.path (Key.normalize (keyOf s.dataset half)))

theorem ObjectsApart.site_ne {s : Settings} {w : World} (hobjects : ObjectsApart s w)
    (half : Half) :
    w.store.site w.files (keyOf s.dataset half) ≠
      .inl (w.files.location s.source.stagingFile) := by
  unfold ObjectStore.site ObjectStore.siteIn
  cases hdirectory : w.store.directory? with
  | none => simp
  | some d =>
      intro hsame
      exact hobjects d hdirectory half (Sum.inl.inj hsame).symm

/-- The second run leaves the files and the objects of the first. -/
structure Reproduces (s : DatasetSettings) (done last : World) : Prop where
  file : ∀ half, ∃ content, done.files.read (outputPath s half) = .ok content ∧
    last.files.read (outputPath s half) = .ok content
  object : ∀ half, ∃ data, done.store.object? done.files (keyOf s half) = some data ∧
    last.store.object? last.files (keyOf s half) = some data

/-- Where staging skips, a run builds from the files that it finds. -/
theorem Ran.files_staged {s : Settings} {report : PipelineReport} {w later : World} {t : Trail}
    (h : Ran s report w t later) (hexists : w.files.exists? s.source.stagingFile = true) :
    t.staged.files = w.files := by
  obtain ⟨entries, hstage⟩ := stage_of_exists hexists
  rw [h.staged, Prod.mk.injEq] at hstage
  rw [hstage.2, World.files_report]

theorem Ran.reproduces {s : Settings} {report : PipelineReport} {w done again : World}
    {t : Trail} (hvalid : s.dataset.fault? = none) (h : Ran s report w t done)
    (hapart : StagedApart s w.files) (hobjects : ObjectsApart s w)
    (hresumes : Resumes s done again) :
    ∃ last, (run s).on again = (.ok { report with staging := .skipped }, last) ∧
      Reproduces s.dataset done last := by
  obtain ⟨content, step, hstaged, -, -⟩ := splitOutcome_eq_ok_iff.mp h.split
  have hcontinues := h.continues hresumes
  have hread := hcontinues.files.read (h.read_staged hapart hobjects.site_ne hstaged)
  obtain ⟨last, hlast⟩ := h.run_again hcontinues hstaged hread hvalid
  obtain ⟨u, hagain⟩ := ran_of_run hvalid hcontinues.faultless.truthful hlast
  have hsplit : u.split = t.split := by
    have hfound := hagain.split
    rw [hagain.files_staged (FileTree.exists?_eq_true_iff.mpr (.inr ⟨content, hread⟩)),
      h.split_again hstaged hread, Except.ok.injEq, Prod.mk.injEq] at hfound
    exact hfound.1.symm
  have hkeeps := h.keeps_again hcontinues
  have hdirectory := hcontinues.directory.trans h.directory?_later
  have hagree := h.agree hagain hkeeps hdirectory hsplit
  refine ⟨last, hlast, ?_, ?_⟩
  · intro half
    obtain ⟨bytes, hheld⟩ := h.held_output half
    have hsame := hagree _ (output_mem_changedSites s.dataset w half)
    rw [hheld, ← hkeeps.location_eq] at hsame
    exact ⟨bytes, h.read_output hheld, hagain.read_output hsame.symm⟩
  · intro half
    obtain ⟨data, hheld⟩ := h.held_object half
    have hsame := hagree _ (object_mem_changedSites s.dataset w half)
    rw [hheld, ← site_eq hdirectory hkeeps] at hsame
    refine ⟨data, ?_, ?_⟩
    · rw [h.object?_later, hheld]
    · rw [hagain.object?_later, ← hsame]

/-- A build keeps the staged file, whether it answers or fails, if it writes none there, and
if it answers only then.  Where a run keeps it, a later run without faults skips the
download and leaves the same files and the same objects. -/
theorem staged_file_outlives {s : Settings} (hvalid : s.fault? = none) :
    (∀ (w later : World) (outcome : Except Failure Datasets),
      (build s).on w = (outcome, later) → w.files.exists? s.source.stagingFile = true →
        StagedApart s w.files →
          later.files.stat s.source.stagingFile = w.files.stat s.source.stagingFile) ∧
    (∀ (w later : World) (datasets : Datasets), (build s).on w = (.ok datasets, later) →
      (later.files.stat s.source.stagingFile = w.files.stat s.source.stagingFile ↔
        StagedApart s w.files)) ∧
    ∀ (w done again : World) (report : PipelineReport), w.store.Truthful 2 →
      (run s).on w = (.ok report, done) → StagedApart s w.files → ObjectsApart s w →
        Resumes s done again →
          ∃ last, (run s).on again = (.ok { report with staging := .skipped }, last) ∧
            Reproduces s.dataset done last := by
  have hdataset := dataset_valid hvalid
  refine ⟨?_, ?_, ?_⟩
  · intro w later outcome hon hexists hapart
    exact build_keeps_staged hapart hexists hon
  · intro w later datasets hbuild
    exact build_keeps_staged_iff hdataset hbuild
  · intro w done again report htruthful hrun hapart hobjects hresumes
    obtain ⟨t, h⟩ := ran_of_run hdataset htruthful hrun
    exact h.reproduces hdataset hapart hobjects hresumes

/-! ## Staged files of the sample -/

theorem sample_ready :
    Ready (sampleSettings "train.json") sampleWorld sampleSplit ⟨1, 2, 2, 0⟩ where
  outcome := splitOutcome_sample "train.json"
  room half := by
    cases half <;> constructor <;> decide +kernel
  kept held := by
    rw [withHalf, Function.update_of_ne (by decide +kernel),
      Function.update_of_ne (by decide +kernel), withHalf, Function.update_self]
    exact ⟨_, rfl⟩
  key half := by
    cases half <;> decide +kernel
  objectRoom half d hd := by
    contradiction
  faultless := rfl

theorem sample_staged_file_outlives :
    (sampleSettings "train.json").fault? = none ∧
      StagedApart (sampleSettings "train.json") sampleWorld.files ∧
      (∃ datasets built,
        (build (sampleSettings "train.json")).on sampleWorld = (.ok datasets, built) ∧
          built.files.stat "source.csv" = sampleWorld.files.stat "source.csv") ∧
      ∃ report done again last,
        (run (sampleSettings "train.json")).on sampleWorld = (.ok report, done) ∧
        Resumes (sampleSettings "train.json") done again ∧
        (run (sampleSettings "train.json")).on again =
          (.ok { report with staging := .skipped }, last) ∧
        Reproduces (sampleSettings "train.json").dataset done last := by
  have hvalid : (sampleSettings "train.json").fault? = none := by decide +kernel
  have hapart : StagedApart (sampleSettings "train.json") sampleWorld.files := by decide +kernel
  have htruthful : sampleWorld.store.Truthful 2 := trivial
  have hdataset := dataset_valid hvalid
  obtain ⟨done, hrun⟩ := sample_ready.run hdataset
  obtain ⟨t, hran⟩ := ran_of_run hdataset htruthful hrun
  have hresumes : Resumes (sampleSettings "train.json") done
      { done with store := .memory ⟨[("kinesis-output/late.csv", sampleContent)], [], []⟩ } :=
    .outside rfl hran.directory?_later rfl rfl
  obtain ⟨hkeeps, -, hagain⟩ := staged_file_outlives hvalid
  have hobjects : ObjectsApart (sampleSettings "train.json") sampleWorld := by
    intro d hd
    contradiction
  obtain ⟨last, hlast, hreproduces⟩ :=
    hagain sampleWorld done _ _ htruthful hrun hapart hobjects hresumes
  obtain ⟨built, hbuild, -⟩ := build_of_room sample_ready.outcome sample_ready.room
  have hkept := hkeeps sampleWorld built _ hbuild (by decide +kernel) hapart
  exact ⟨hvalid, hapart, ⟨_, built, hbuild, hkept⟩, _, done, _, last, hrun, hresumes, hlast,
    hreproduces⟩

def overlappingWorld : World :=
  { sampleWorld with
    files := { FileTree.bare with
      entries := [(["work"], .directory), (["work", "train.json.tmp"], .file sampleContent)] } }

def overlappingSettings : Settings :=
  { sampleSettings "train.json" with
    source := { SourceSettings.default with stagingFile := "train.json.tmp" } }

/-- A staged file under the name of the unfinished training file is valid, and a build that
answers moves it away. -/
theorem overlapping_build_overwrites_staged :
    overlappingSettings.fault? = none ∧
      overlappingWorld.files.exists? overlappingSettings.source.stagingFile = true ∧
      ∃ later datasets, (build overlappingSettings).on overlappingWorld = (.ok datasets, later) ∧
        later.files.stat overlappingSettings.source.stagingFile ≠
          overlappingWorld.files.stat overlappingSettings.source.stagingFile := by
  have hvalid : overlappingSettings.fault? = none := by decide +kernel
  have hsplit : splitOutcome overlappingSettings overlappingWorld.files =
      .ok (sampleSplit, ⟨1, 2, 2, 0⟩) := by
    obtain ⟨content, step, hread, hstep, hcontent⟩ :=
      splitOutcome_eq_ok_iff.mp (splitOutcome_sample "train.json")
    refine splitOutcome_eq_ok_iff.mpr ⟨content, step, ?_, hstep, hcontent⟩
    rw [← hread]
    decide +kernel
  have hroom : ∀ half, DatasetFile.Room overlappingWorld.files
      (outputPath overlappingSettings.dataset half) := by
    intro half
    cases half <;> constructor <;> decide +kernel
  obtain ⟨later, hbuild, -⟩ := build_of_room hsplit hroom
  refine ⟨hvalid, by decide +kernel, later, _, hbuild, fun hstat => ?_⟩
  have hapart := (build_keeps_staged_iff (dataset_valid hvalid) hbuild).mp hstat
  exact absurd hapart (by decide +kernel)

end Pipeline
end ZoneDemand
