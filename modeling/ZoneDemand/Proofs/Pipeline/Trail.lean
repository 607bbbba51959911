import ZoneDemand.Proofs.Pipeline.Frame

/-!
# A run that answers

A run that answers stages, builds both files and uploads what they hold, and it changes
what is held at six sites only: those of the two files, of the two under construction and
of the two objects.  All else, the staged file among it, is as staging has left it.
-/

namespace ZoneDemand

namespace Upload

variable {store : ObjectStore} {tree : FileTree} {path key : String}

theorem run_eq_ok {size : Nat} (hrun : (run store tree path key).outcome = .ok size) :
    ∃ data, tree.read path = .ok data ∧
      store.write tree key data =
        ((run store tree path key).store, (run store tree path key).files, .ok ()) := by
  unfold run at hrun ⊢
  cases hread : tree.read path with
  | error fault => simp [hread] at hrun
  | ok data =>
      cases hcontains : store.contains tree key with
      | error e => simp [hread, hcontains] at hrun
      | ok replaces =>
          cases hwrite : store.write tree key data with
          | mk written rest =>
              obtain ⟨files, outcome⟩ := rest
              cases outcome with
              | error e => simp [hread, hcontains, hwrite] at hrun
              | ok u => simp [hwrite]

theorem run_of_write {data : Bytes} {replaces : Bool} {written : ObjectStore} {files : FileTree}
    (hread : tree.read path = .ok data) (hcontains : store.contains tree key = .ok replaces)
    (hwrite : store.write tree key data = (written, files, .ok ())) :
    (run store tree path key).store = written ∧ (run store tree path key).files = files ∧
      (run store tree path key).outcome = .ok data.length := by
  unfold run
  simp only [hread, hcontains, hwrite, and_self]

end Upload

namespace Pipeline

section Upload

variable {n : Nat} {s : DatasetSettings} {datasets : Datasets} {half : Half} {w later : World}

/-- The key under which the file of a half is uploaded. -/
def keyOf (s : DatasetSettings) (half : Half) : String :=
  datasetKey s.stem half (s.fileName half)

def halfUploaded (s : DatasetSettings) (datasets : Datasets) (half : Half) (w : World) : Upload :=
  Upload.run w.store w.files (datasets.file half).path (keyOf s half)

theorem uploadHalf_on (s : DatasetSettings) (datasets : Datasets) (half : Half) (w : World) :
    ∃ journal, (uploadHalf s datasets half).on w =
      (((halfUploaded s datasets half w).outcome.mapError fun e =>
          .during (.uploading half) (.ofCause (.storage e))).map fun _ => keyOf s half,
        ⟨(halfUploaded s datasets half w).files, (halfUploaded s datasets half w).store,
          journal⟩) := by
  unfold uploadHalf uploadFile halfUploaded keyOf
  simp only [Action.on_bind, Action.on_mapFailure, Action.on_get, Action.on_set,
    Action.on_report, Action.on_ofExcept, Action.on_pure]
  generalize Upload.run _ _ _ _ = upload
  cases upload.outcome with
  | error e => exact ⟨_, rfl⟩
  | ok size => exact ⟨_, rfl⟩

/-- An upload of a half that answers has stored what its file holds. -/
theorem uploadHalf_stored {key : String} (htruthful : w.store.Truthful (n + 1))
    (hon : (uploadHalf s datasets half).on w = (.ok key, later)) :
    key = keyOf s half ∧ ∃ data,
      w.files.read (datasets.file half).path = .ok data ∧
        ObjectStore.Stored n w.store w.files key data later.store later.files := by
  obtain ⟨journal, hupload⟩ := uploadHalf_on s datasets half w
  rw [hupload, Prod.mk.injEq, map_eq_ok_iff] at hon
  obtain ⟨⟨size, hsize, rfl⟩, rfl⟩ := hon
  obtain ⟨data, hread, hwrite⟩ := Upload.run_eq_ok (mapError_eq_ok_iff.mp hsize)
  exact ⟨rfl, data, hread, ObjectStore.write_eq_ok htruthful hwrite⟩

/-- An upload without faults answers. -/
theorem uploadHalf_of_faultless {data : Bytes} (hfaultless : w.store.Faultless (n + 1))
    (hread : w.files.read (datasets.file half).path = .ok data)
    (hkey : Key.isDirectory (Key.normalize (keyOf s half)) = false)
    (hroom : w.store.Room w.files (keyOf s half)) :
    ∃ later, (uploadHalf s datasets half).on w = (.ok (keyOf s half), later) ∧
      FileTree.SameDirectories w.files later.files ∧ later.store.Faultless n := by
  obtain ⟨replaces, hcontains⟩ := ObjectStore.contains_of_faultless hfaultless hkey hroom
  obtain ⟨written, files, hwrite, hsame, hlater⟩ :=
    ObjectStore.write_of_faultless hfaultless hkey hroom data
  obtain ⟨hstore, hfiles, houtcome⟩ := Upload.run_of_write hread hcontains hwrite
  obtain ⟨journal, hupload⟩ := uploadHalf_on s datasets half w
  rw [halfUploaded, hstore, hfiles, houtcome] at hupload
  exact ⟨_, hupload, hsame, hlater⟩

end Upload

/-! ## A run that answers -/

theorem keepsDirectories_staging (store : ObjectStore) (tree : FileTree) (stem path : String)
    (chunk : Nat) :
    FileTree.KeepsDirectories tree (Staging.run store tree stem path chunk).files := by
  have hunchanged := (FileTree.Extends.refl tree).keepsDirectories
  unfold Staging.run
  split
  · exact hunchanged
  split
  · exact hunchanged
  · exact hunchanged
  · unfold Staging.ofKeys
    simp only
    split
    · rename_i made e hmade
      exact (FileTree.spares_of_prepare hmade path).discard.keepsDirectories
    · rename_i made hmade
      have hprepare := FileTree.spares_of_prepare hmade path
      split
      · exact hprepare.discard.keepsDirectories
      · split
        · rename_i written e hwritten
          exact (hprepare.trans (FileTree.spares_of_complete hwritten)).discard.keepsDirectories
        · rename_i written hwritten
          exact (hprepare.trans (FileTree.spares_of_complete hwritten)).keepsDirectories

theorem stage_keepsDirectories {s : Settings} {w later : World}
    {outcome : Except Failure StagingOutcome} (hon : (stage s).on w = (outcome, later)) :
    FileTree.KeepsDirectories w.files later.files := by
  unfold stage stageInto at hon
  rw [Action.on_mapFailure, Action.on_bind_of_ok (Action.on_get w),
    Action.on_bind_of_ok (Action.on_set _ w), Action.on_bind_of_ok (Action.on_report _ _),
    Action.on_ofExcept, Prod.mk.injEq] at hon
  rw [← hon.2]
  exact keepsDirectories_staging w.store w.files s.source.stem s.source.stagingFile
    s.source.chunkBytes

/-- The worlds and values that a run which answers goes through. -/
structure Trail where
  staged : World
  built : World
  between : World
  split : Split
  trainBytes : Bytes
  testBytes : Bytes

/-- What a run that answers has done. -/
structure Ran (s : Settings) (report : PipelineReport) (w : World) (t : Trail) (later : World) :
    Prop where
  staged : (stage s).on w = (.ok report.staging, t.staged)
  split : splitOutcome s t.staged.files = .ok (t.split, report.datasets.stats)
  built : Built s.dataset t.split report.datasets t.staged t.built
  readTrain : t.built.files.read (outputPath s.dataset .train) = .ok t.trainBytes
  storedTrain : ObjectStore.Stored 1 t.built.store t.built.files (keyOf s.dataset .train)
    t.trainBytes t.between.store t.between.files
  readTest : t.between.files.read (outputPath s.dataset .test) = .ok t.testBytes
  storedTest : ObjectStore.Stored 0 t.between.store t.between.files (keyOf s.dataset .test)
    t.testBytes later.store later.files
  uploaded : report.uploaded = [keyOf s.dataset .train, keyOf s.dataset .test]

theorem ran_of_run {s : Settings} (hvalid : s.dataset.fault? = none) {report : PipelineReport}
    {w later : World} (htruthful : w.store.Truthful 2) (hrun : (run s).on w = (.ok report, later)) :
    ∃ trail, Ran s report w trail later := by
  unfold run at hrun
  obtain ⟨staging, staged, hstage, hrun⟩ := Action.on_bind_eq_ok hrun
  obtain ⟨datasets, built, hbuild, hrun⟩ := Action.on_bind_eq_ok hrun
  obtain ⟨keys, last, hupload, hrun⟩ := Action.on_bind_eq_ok hrun
  rw [Action.on_bind_of_ok (Action.on_report _ _), Action.on_pure, Prod.mk.injEq,
    Except.ok.injEq] at hrun
  obtain ⟨rfl, rfl⟩ := hrun
  unfold upload at hupload
  obtain ⟨trainKey, between, htrain, hupload⟩ := Action.on_bind_eq_ok hupload
  obtain ⟨testKey, final, htest, hupload⟩ := Action.on_bind_eq_ok hupload
  rw [Action.on_pure, Prod.mk.injEq, Except.ok.injEq] at hupload
  obtain ⟨rfl, rfl⟩ := hupload
  obtain ⟨split, hsplit, hbuilt⟩ := built_of_build hvalid hbuild
  rw [← stage_store hstage, ← hbuilt.store] at htruthful
  obtain ⟨rfl, trainBytes, hreadTrain, hstoredTrain⟩ := uploadHalf_stored htruthful htrain
  obtain ⟨rfl, testBytes, hreadTest, hstoredTest⟩ :=
    uploadHalf_stored hstoredTrain.truthful htest
  rw [hbuilt.file] at hreadTrain hreadTest
  exact ⟨⟨staged, built, between, split, trainBytes, testBytes⟩, hstage, hsplit, hbuilt,
    hreadTrain, hstoredTrain, hreadTest, hstoredTest, rfl⟩

/-- What a run changes, given what it writes and uploads. -/
def runChanges (s : DatasetSettings) (w : World) (split : Split) (trainBytes testBytes : Bytes)
    (held : Site → Option Bytes) : Site → Option Bytes :=
  Function.update
    (Function.update (withHalf s split w.files .test (withHalf s split w.files .train held))
      (w.store.site w.files (keyOf s .train)) (some trainBytes))
    (w.store.site w.files (keyOf s .test)) (some testBytes)

theorem withHalf_of_ne {s : DatasetSettings} {split : Split} {tree : FileTree} {half : Half}
    {held : Site → Option Bytes} {site : Site}
    (hbuilt : ∀ path ∈ builtPaths s, site ≠ .inl (tree.location path)) :
    withHalf s split tree half held site = held site := by
  rw [withHalf, Function.update_of_ne (hbuilt _ (outputPath_mem_builtPaths s half)),
    Function.update_of_ne (hbuilt _ (temporaryPath_mem_builtPaths s half))]

theorem exists_update_some {held : Site → Option Bytes} {site : Site}
    (h : ∃ content, held site = some content) (other : Site) (data : Bytes) :
    ∃ content, Function.update held other (some data) site = some content := by
  by_cases hsite : site = other
  · exact ⟨data, by rw [hsite, Function.update_self]⟩
  · rw [Function.update_of_ne hsite]
    exact h

theorem runChanges_of_ne (s : DatasetSettings) (w : World) (split : Split)
    (trainBytes testBytes : Bytes) (held : Site → Option Bytes) {site : Site}
    (hbuilt : ∀ path ∈ builtPaths s, site ≠ .inl (w.files.location path))
    (hobjects : ∀ half, site ≠ w.store.site w.files (keyOf s half)) :
    runChanges s w split trainBytes testBytes held site = held site := by
  rw [runChanges, Function.update_of_ne (hobjects .test), Function.update_of_ne (hobjects .train),
    withHalf_of_ne hbuilt, withHalf_of_ne hbuilt]

theorem site_eq {store other : ObjectStore} {tree later : FileTree}
    (hdirectory : other.directory? = store.directory?)
    (hkeeps : FileTree.KeepsDirectories tree later) (key : String) :
    other.site later key = store.site tree key := by
  rw [ObjectStore.site, hdirectory, hkeeps.workingDirectory, ObjectStore.site]

namespace Ran

variable {s : Settings} {report : PipelineReport} {w later : World} {t : Trail}
  (h : Ran s report w t later)
include h

theorem keeps_built : FileTree.KeepsDirectories w.files t.built.files :=
  (stage_keepsDirectories h.staged).trans h.built.keepsDirectories

theorem keeps_between : FileTree.KeepsDirectories w.files t.between.files :=
  h.keeps_built.trans h.storedTrain.keepsDirectories

theorem keeps_later : FileTree.KeepsDirectories w.files later.files :=
  h.keeps_between.trans h.storedTest.keepsDirectories

theorem keeps_of_built : FileTree.KeepsDirectories t.built.files later.files :=
  h.storedTrain.keepsDirectories.trans h.storedTest.keepsDirectories

theorem store_built : t.built.store = w.store :=
  h.built.store.trans (stage_store h.staged)

theorem directory?_between : t.between.store.directory? = w.store.directory? := by
  rw [h.storedTrain.directory, h.store_built]

theorem directory?_later : later.store.directory? = w.store.directory? := by
  rw [h.storedTest.directory, h.directory?_between]

theorem held_built :
    t.built.held = withHalf s.dataset t.split w.files .test
      (withHalf s.dataset t.split w.files .train t.staged.held) := by
  have hstaged := stage_keepsDirectories h.staged
  rw [h.built.held, withHalf_eq hstaged, withHalf_eq hstaged]

theorem held_between :
    t.between.held = Function.update t.built.held (w.store.site w.files (keyOf s.dataset .train))
      (some t.trainBytes) := by
  rw [World.held, h.storedTrain.held, site_eq (by rw [h.store_built]) h.keeps_built]
  rfl

theorem held_last :
    later.held = Function.update t.between.held (w.store.site w.files (keyOf s.dataset .test))
      (some t.testBytes) := by
  rw [World.held, h.storedTest.held, site_eq h.directory?_between h.keeps_between]
  rfl

theorem held_later :
    later.held = runChanges s.dataset w t.split t.trainBytes t.testBytes t.staged.held := by
  rw [h.held_last, h.held_between, h.held_built, runChanges]

theorem key (half : Half) : Key.isDirectory (Key.normalize (keyOf s.dataset half)) = false := by
  cases half with
  | train => exact h.storedTrain.ordinary
  | test => exact h.storedTest.ordinary

theorem read_staged {path : String}
    (hbuilt : ∀ other ∈ builtPaths s.dataset, w.files.location path ≠ w.files.location other)
    (hobjects : ∀ half, w.store.site w.files (keyOf s.dataset half) ≠
      .inl (w.files.location path))
    {content : Bytes} (hread : t.staged.files.read path = .ok content) :
    later.files.read path = .ok content := by
  have hstaged := stage_keepsDirectories h.staged
  obtain ⟨hplace, hcontent⟩ := FileTree.read_eq_ok_iff_content?.mp hread
  have hkeeps := h.built.keepsDirectories.trans h.keeps_of_built
  rw [FileTree.read_eq_ok_iff_content?, h.keeps_later.location_eq]
  refine ⟨hplace.of_keepsDirectories hkeeps, ?_⟩
  rw [hstaged.location_eq] at hcontent
  have hspared := runChanges_of_ne s.dataset w t.split t.trainBytes t.testBytes t.staged.held
    (fun path hpath => mt Sum.inl.inj (hbuilt path hpath)) (fun half => (hobjects half).symm)
  rw [← h.held_later] at hspared
  exact hspared.trans hcontent

theorem held_train :
    t.built.held (.inl (w.files.location (outputPath s.dataset .train))) = some t.trainBytes := by
  rw [← h.keeps_built.location_eq]
  exact (FileTree.read_eq_ok_iff_content?.mp h.readTrain).2

theorem held_test :
    t.between.held (.inl (w.files.location (outputPath s.dataset .test))) = some t.testBytes := by
  rw [← h.keeps_between.location_eq]
  exact (FileTree.read_eq_ok_iff_content?.mp h.readTest).2

theorem held_output (half : Half) :
    ∃ content, later.held (.inl (w.files.location (outputPath s.dataset half))) =
      some content := by
  rw [h.held_last]
  apply exists_update_some
  cases half with
  | train =>
      rw [h.held_between]
      exact exists_update_some ⟨_, h.held_train⟩ _ _
  | test => exact ⟨_, h.held_test⟩

theorem held_object (half : Half) :
    ∃ data, later.held (w.store.site w.files (keyOf s.dataset half)) = some data := by
  rw [h.held_last]
  cases half with
  | train =>
      rw [h.held_between]
      exact exists_update_some ⟨_, Function.update_self ..⟩ _ _
  | test => exact ⟨_, Function.update_self ..⟩

theorem read_output {half : Half} {content : Bytes}
    (hheld : later.held (.inl (w.files.location (outputPath s.dataset half))) = some content) :
    later.files.read (outputPath s.dataset half) = .ok content := by
  rw [← h.keeps_later.location_eq] at hheld
  exact FileTree.read_eq_ok_iff_content?.mpr
    ⟨(h.built.hasPlace _ (outputPath_mem_builtPaths s.dataset half)).of_keepsDirectories
      h.keeps_of_built, hheld⟩

theorem hasPlace_object (half : Half) :
    later.store.HasPlace later.files (keyOf s.dataset half) := by
  cases half with
  | train =>
      intro d hd
      rw [h.storedTest.directory] at hd
      exact (h.storedTrain.hasPlace d hd).of_keepsDirectories h.storedTest.keepsDirectories
  | test => exact h.storedTest.hasPlace

theorem object?_later (half : Half) :
    later.store.object? later.files (keyOf s.dataset half) =
      later.held (w.store.site w.files (keyOf s.dataset half)) := by
  rw [ObjectStore.object?_eq_held (h.key half) (h.hasPlace_object half),
    site_eq h.directory?_later h.keeps_later]
  rfl

end Ran

end Pipeline
end ZoneDemand
