import ZoneDemand.Proofs.Pipeline.Run
import ZoneDemand.Proofs.Store.Writes

/-!
# What a build leaves alone

A build writes two files through two others, and whether it answers or fails, nothing
else changes.  So it keeps the staged file if none of the four leads to where that is.
A build that answers has done exactly four changes, and without faults and directories in
its way it answers.
-/

namespace ZoneDemand
namespace FileTree

theorem stat_eq_of_content? {tree later : FileTree} {path : String}
    (hkeeps : KeepsDirectories tree later)
    (hcontent : later.content? (tree.location path) = tree.content? (tree.location path))
    (hexists : tree.exists? path = true) : later.stat path = tree.stat path := by
  rcases exists?_eq_true_iff.mp hexists with hdirectory | ⟨content, hread⟩
  · rw [hdirectory]
    exact stat_directory_of_keepsDirectories hkeeps hdirectory
  · obtain ⟨hplace, hbefore⟩ := read_eq_ok_iff_content?.mp hread
    have hlater : later.read path = .ok content := by
      rw [read_eq_ok_iff_content?, hkeeps.location_eq, hcontent]
      exact ⟨hplace.of_keepsDirectories hkeeps, hbefore⟩
    rw [read_eq_ok_iff, ← stat_eq_file_iff] at hread hlater
    rw [hread, hlater]

end FileTree

def World.held (w : World) : Site → Option Bytes := w.store.held w.files

namespace Pipeline

/-- The local files that a build writes, those under construction among them. -/
def builtPaths (s : DatasetSettings) : List String :=
  [DatasetFile.temporaryPath (outputPath s .train), outputPath s .train,
    DatasetFile.temporaryPath (outputPath s .test), outputPath s .test]

theorem temporaryPath_mem_builtPaths (s : DatasetSettings) (half : Half) :
    DatasetFile.temporaryPath (outputPath s half) ∈ builtPaths s := by
  cases half <;> simp [builtPaths]

theorem outputPath_mem_builtPaths (s : DatasetSettings) (half : Half) :
    outputPath s half ∈ builtPaths s := by
  cases half <;> simp [builtPaths]

/-- No file that a build writes goes where the staged file is. -/
def StagedApart (s : Settings) (tree : FileTree) : Prop :=
  ∀ path ∈ builtPaths s.dataset, tree.location s.source.stagingFile ≠ tree.location path

instance (s : Settings) (tree : FileTree) : Decidable (StagedApart s tree) :=
  inferInstanceAs (Decidable (∀ path ∈ builtPaths s.dataset, _))

/-! ## Any build -/

section Frame

variable {s : DatasetSettings} {split : Split} {half : Half} {w later : World}

theorem writeHalf_spares {outcome : Except Failure DatasetFile}
    (hon : (writeHalf s split half).on w = (outcome, later)) :
    FileTree.Spares (DatasetFile.temporaryPath (outputPath s half)) (outputPath s half)
      w.files later.files := by
  obtain ⟨entries, hwrite⟩ := writeHalf_on s split half w
  rw [hwrite, Prod.mk.injEq] at hon
  have hfiles : later.files = (halfWritten s split half w.files).1 := by rw [← hon.2]
  rw [hfiles, halfWritten]
  exact DatasetFile.write_spares w.files (outputPath s half) (split.half half) s.categories

/-- All directories are kept, and so is every file at no location of a build. -/
structure SparesOthers (s : DatasetSettings) (tree later : FileTree) : Prop where
  keepsDirectories : FileTree.KeepsDirectories tree later
  content : ∀ other, (∀ path ∈ builtPaths s, other ≠ tree.location path) →
    later.content? other = tree.content? other

theorem SparesOthers.refl (s : DatasetSettings) (tree : FileTree) : SparesOthers s tree tree :=
  ⟨(FileTree.Extends.refl tree).keepsDirectories, fun _ _ => rfl⟩

theorem SparesOthers.trans {first second third : FileTree} (hfirst : SparesOthers s first second)
    (hsecond : SparesOthers s second third) : SparesOthers s first third where
  keepsDirectories := hfirst.keepsDirectories.trans hsecond.keepsDirectories
  content other hother := by
    have hlocation := hfirst.keepsDirectories.location_eq
    rw [hsecond.content other (by simpa only [hlocation] using hother),
      hfirst.content other hother]

theorem writeHalf_sparesOthers {outcome : Except Failure DatasetFile}
    (hon : (writeHalf s split half).on w = (outcome, later)) :
    SparesOthers s w.files later.files := by
  have hspares := writeHalf_spares hon
  refine ⟨hspares.keepsDirectories, fun other hother => hspares.content other ?_ ?_⟩
  · exact hother _ (temporaryPath_mem_builtPaths s half)
  · exact hother _ (outputPath_mem_builtPaths s half)

end Frame

theorem build_sparesOthers {s : Settings} {w later : World} {outcome : Except Failure Datasets}
    (hon : (build s).on w = (outcome, later)) : SparesOthers s.dataset w.files later.files := by
  obtain ⟨entries, hreports⟩ := reports_splitDataset s w
  unfold build at hon
  cases hsplit : splitOutcome s w.files with
  | error e =>
      rw [hsplit] at hreports
      rw [Action.on_bind_of_error hreports, Prod.mk.injEq] at hon
      rw [← hon.2]
      exact .refl s.dataset w.files
  | ok result =>
      obtain ⟨split, stats⟩ := result
      rw [hsplit] at hreports
      rw [Action.on_bind_of_ok hreports] at hon
      rcases Action.on_bind_cases hon with ⟨e, htrain, -⟩ | ⟨train, between, htrain, hon⟩
      · have hspares := writeHalf_sparesOthers htrain
        rwa [World.files_report] at hspares
      have hbetween := writeHalf_sparesOthers htrain
      rw [World.files_report] at hbetween
      rcases Action.on_bind_cases hon with ⟨e, htest, -⟩ | ⟨test, last, htest, hon⟩
      · exact hbetween.trans (writeHalf_sparesOthers htest)
      rw [Action.on_pure, Prod.mk.injEq] at hon
      rw [← hon.2]
      exact hbetween.trans (writeHalf_sparesOthers htest)

theorem build_keeps_staged {s : Settings} {w later : World} {outcome : Except Failure Datasets}
    (hapart : StagedApart s w.files)
    (hexists : w.files.exists? s.source.stagingFile = true)
    (hon : (build s).on w = (outcome, later)) :
    later.files.stat s.source.stagingFile = w.files.stat s.source.stagingFile := by
  have hspares := build_sparesOthers hon
  exact FileTree.stat_eq_of_content? hspares.keepsDirectories (hspares.content _ hapart) hexists

/-! ## A build that answers -/

/-- What is held once the file of a half has been written. -/
def withHalf (s : DatasetSettings) (split : Split) (tree : FileTree) (half : Half)
    (held : Site → Option Bytes) : Site → Option Bytes :=
  Function.update
    (Function.update held
      (.inl (tree.location (DatasetFile.temporaryPath (outputPath s half)))) none)
    (.inl (tree.location (outputPath s half))) (some (fileBytes s split half))

theorem withHalf_eq {s : DatasetSettings} {tree later : FileTree}
    (h : FileTree.KeepsDirectories tree later) (split : Split) (half : Half) :
    withHalf s split later half = withHalf s split tree half := by
  funext held
  rw [withHalf, h.location_eq, h.location_eq, withHalf]

/-- The summary of the file of a half. -/
def summary (s : DatasetSettings) (split : Split) (half : Half) : DatasetFile :=
  ⟨outputPath s half, (split.half half).length, (fileBytes s split half).length⟩

/-- What a build that answers has done. -/
structure Built (s : DatasetSettings) (split : Split) (datasets : Datasets) (w later : World) :
    Prop where
  keepsDirectories : FileTree.KeepsDirectories w.files later.files
  store : later.store = w.store
  hasPlace : ∀ path ∈ builtPaths s, later.files.HasPlace path
  free : ∀ half, later.files.node?
    (w.files.location (DatasetFile.temporaryPath (outputPath s half))) ≠ some .directory
  file : ∀ half, datasets.file half = summary s split half
  held : later.held = withHalf s split w.files .test
    (withHalf s split w.files .train w.held)

section Half

variable {s : DatasetSettings} {split : Split} {half : Half} {w later : World}
  {file : DatasetFile} (hwrite : (writeHalf s split half).on w = (.ok file, later))
include hwrite

theorem writeHalf_hasPlace :
    later.files.HasPlace (DatasetFile.temporaryPath (outputPath s half)) ∧
      later.files.HasPlace (outputPath s half) := by
  obtain ⟨-, source, place, hwritten⟩ := writeHalf_eq_ok hwrite
  exact hwritten.hasPlace

theorem writeHalf_free :
    later.files.node? (w.files.location (DatasetFile.temporaryPath (outputPath s half))) ≠
      some .directory := by
  obtain ⟨-, source, place, hwritten⟩ := writeHalf_eq_ok hwrite
  exact hwritten.temporary_ne

theorem writeHalf_sameDirectories (hancestors : FileTree.HasAncestors w.files
      (DatasetFile.temporaryPath (outputPath s half))) :
    FileTree.SameDirectories w.files later.files := by
  obtain ⟨entries, hon⟩ := writeHalf_on s split half w
  cases hresult : halfWritten s split half w.files with
  | mk files result =>
      rw [hon, hresult, Prod.mk.injEq, mapError_eq_ok_iff] at hwrite
      obtain ⟨rfl, rfl⟩ := hwrite
      exact DatasetFile.sameDirectories_of_write hancestors hresult

theorem held_writeHalf :
    later.held = withHalf s split w.files half w.held := by
  obtain ⟨-, source, place, hwritten⟩ := writeHalf_eq_ok hwrite
  have hcontent := hwritten.content?_eq (writeHalf_spares hwrite)
  rw [World.held, (writeHalf_store hwrite).1, withHalf, World.held, ObjectStore.held, hcontent,
    ← Sum.update_elim_inl, ← Sum.update_elim_inl]
  rfl

end Half

/-- Where one file of a build has its place, so has the file under construction for the
other. -/
theorem hasAncestors_temporaryPath {s : DatasetSettings} {half other : Half} {tree : FileTree}
    (hname : Path.Ordinary (s.fileName half)) (hother : Path.Ordinary (s.fileName other))
    (hplace : tree.HasPlace (outputPath s half))
    (hsound : Path.Sound (DatasetFile.temporaryPath (outputPath s other))) :
    FileTree.HasAncestors tree (DatasetFile.temporaryPath (outputPath s other)) := by
  intro ancestor hancestor
  obtain ⟨hparent, hne⟩ := FileTree.parent?_of_ancestor? hancestor
  obtain ⟨habsolute, last, hsteps, -, hlast⟩ := Path.steps_of_parent? hparent
  obtain ⟨name, rfl⟩ := hlast hne
  rw [steps_temporaryPath hother] at hsteps
  obtain ⟨-, before, final, parent, hbefore, hwalk, -⟩ := FileTree.walk_of_place? hplace
  rw [steps_outputPath hname] at hbefore
  rw [FileTree.stat_directory_iff_walk]
  refine ⟨hsound.of_isPrefix (Path.parent?_isPrefix hparent) hne, parent, ?_⟩
  have hbase : tree.base ancestor = tree.base (outputPath s half) := by
    rw [FileTree.base, habsolute, isAbsolute_temporaryPath hother, FileTree.base,
      outputPath, Path.isAbsolute_append_name s.outputDirectory hname]
  rw [hbase, ← (List.append_inj' hsteps rfl).1, (List.append_inj' hbefore rfl).1]
  exact hwalk

theorem built_of_build {s : Settings} (hvalid : s.dataset.fault? = none) {w later : World}
    {datasets : Datasets} (hbuild : (build s).on w = (.ok datasets, later)) :
    ∃ split, splitOutcome s w.files = .ok (split, datasets.stats) ∧
      Built s.dataset split datasets w later := by
  obtain ⟨split, start, between, hsplit, hfiles, htrain, htest⟩ := build_eq_ok hbuild
  have hkeeps := (writeHalf_sparesOthers htest).keepsDirectories
  have hfirst := (writeHalf_sparesOthers htrain).keepsDirectories
  obtain ⟨htrainTemporary, htrainOutput⟩ := writeHalf_hasPlace htrain
  obtain ⟨htestTemporary, htestOutput⟩ := writeHalf_hasPlace htest
  have hstore : start.store = w.store := by
    rw [← (build_on hbuild).1, (writeHalf_store htest).1, (writeHalf_store htrain).1]
  have hstart : start.held = w.held := by
    rw [World.held, hfiles, hstore, World.held]
  have hancestors : FileTree.HasAncestors between.files
      (DatasetFile.temporaryPath (outputPath s.dataset .test)) := by
    apply hasAncestors_temporaryPath _ _ htrainOutput (FileTree.walk_of_place? htestTemporary).1
    · exact FileTree.ordinary_of_place? (bare_fileName hvalid .train) htrainOutput
    · exact FileTree.ordinary_of_place? (bare_fileName hvalid .test) htestOutput
  refine ⟨split, hsplit, ?_, (build_on hbuild).1, ?_, ?_, ?_, ?_⟩
  · rw [← hfiles]
    exact hfirst.trans hkeeps
  · simp only [builtPaths, List.forall_mem_cons]
    exact ⟨htrainTemporary.of_keepsDirectories hkeeps, htrainOutput.of_keepsDirectories hkeeps,
      htestTemporary, htestOutput, by simp⟩
  · intro half
    rw [← hfiles]
    cases half with
    | train =>
        exact (writeHalf_sameDirectories htest hancestors).node?_ne (writeHalf_free htrain)
    | test =>
        rw [← hfirst.location_eq]
        exact writeHalf_free htest
  · intro half
    cases half with
    | train => exact (writeHalf_eq_ok htrain).1
    | test => exact (writeHalf_eq_ok htest).1
  · rw [held_writeHalf htest, held_writeHalf htrain, hstart, withHalf_eq hfirst, hfiles]

theorem halfWritten_of_room {s : DatasetSettings} {half : Half} {files : FileTree}
    (hroom : DatasetFile.Room files (outputPath s half)) (split : Split) :
    (halfWritten s split half files).2 = .ok (summary s split half) ∧
      FileTree.SameDirectories files (halfWritten s split half files).1 := by
  obtain ⟨later, hwrite, hsame⟩ := DatasetFile.write_of_room hroom (split.half half) s.categories
  rw [halfWritten, hwrite]
  exact ⟨rfl, hsame⟩

/-- A build whose files no directory stands in the way of answers. -/
theorem build_of_room {s : Settings} {w : World} {split : Split} {stats : ResampleStats}
    (hsplit : splitOutcome s w.files = .ok (split, stats))
    (hroom : ∀ half, DatasetFile.Room w.files (outputPath s.dataset half)) :
    ∃ later, (build s).on w =
        (.ok ⟨summary s.dataset split .train, summary s.dataset split .test, stats⟩, later) ∧
      FileTree.SameDirectories w.files later.files := by
  obtain ⟨htrain, hsame⟩ := halfWritten_of_room (hroom .train) split
  obtain ⟨htest, hlast⟩ := halfWritten_of_room ((hroom .test).of_sameDirectories hsame) split
  obtain ⟨later, hbuild, hfiles⟩ := build_of_written hsplit htrain htest
  refine ⟨later, hbuild, ?_⟩
  rw [hfiles]
  exact hsame.trans hlast

end Pipeline
end ZoneDemand
