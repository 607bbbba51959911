import ZoneDemand.Proofs.Pipeline.Trail

/-!
# Running again

Where no fault and no directory intervenes, a later run with the same settings makes the
changes of an earlier one again.  So it answers the same, up to skipping the download, and
the same is held at the sites of the run afterwards.
-/

namespace ZoneDemand

/-- The same is held at the sites. -/
def Agree (sites : List Site) (held later : Site → Option Bytes) : Prop :=
  ∀ site ∈ sites, held site = later site

theorem Agree.update {sites : List Site} {held later : Site → Option Bytes}
    (h : Agree sites held later) (site : Site) (value : Option Bytes) :
    Agree (site :: sites) (Function.update held site value)
      (Function.update later site value) := by
  intro other hother
  by_cases hsite : other = site
  · rw [hsite, Function.update_self, Function.update_self]
  · rw [Function.update_of_ne hsite, Function.update_of_ne hsite]
    exact h other ((List.mem_cons.mp hother).resolve_left hsite)

theorem Agree.withHalf {sites : List Site} {held later : Site → Option Bytes}
    (h : Agree sites held later) (s : DatasetSettings) (split : Split) (tree : FileTree)
    (half : Half) :
    Agree (.inl (tree.location (Pipeline.outputPath s half)) ::
        .inl (tree.location (DatasetFile.temporaryPath (Pipeline.outputPath s half))) :: sites)
      (Pipeline.withHalf s split tree half held) (Pipeline.withHalf s split tree half later) :=
  (h.update _ none).update _ _

namespace Pipeline

/-- The sites that a build changes. -/
def builtSites (s : DatasetSettings) (tree : FileTree) : List Site :=
  [.inl (tree.location (outputPath s .test)),
    .inl (tree.location (DatasetFile.temporaryPath (outputPath s .test))),
    .inl (tree.location (outputPath s .train)),
    .inl (tree.location (DatasetFile.temporaryPath (outputPath s .train)))]

theorem output_mem_builtSites (s : DatasetSettings) (tree : FileTree) (half : Half) :
    .inl (tree.location (outputPath s half)) ∈ builtSites s tree := by
  cases half <;> simp [builtSites]

theorem agree_builtSites (s : DatasetSettings) (split : Split) (tree : FileTree)
    (held later : Site → Option Bytes) :
    Agree (builtSites s tree) (withHalf s split tree .test (withHalf s split tree .train held))
      (withHalf s split tree .test (withHalf s split tree .train later)) := by
  have hnone : Agree [] held later := fun _ hmem => absurd hmem List.not_mem_nil
  exact (hnone.withHalf s split tree .train).withHalf s split tree .test

/-! ## Runs without a download -/

/-- An upload that answers leaves every file that can be read one that can be read. -/
theorem exists_read_of_stored {n : Nat} {store written : ObjectStore} {tree files : FileTree}
    {key path : String} {data : Bytes}
    (hstored : ObjectStore.Stored n store tree key data written files)
    (hread : ∃ content, tree.read path = .ok content) :
    ∃ content, files.read path = .ok content := by
  obtain ⟨content, hread⟩ := hread
  obtain ⟨hplace, hcontent⟩ := FileTree.read_eq_ok_iff_content?.mp hread
  have hheld : ∃ content, store.held tree (.inl (tree.location path)) = some content :=
    ⟨content, hcontent⟩
  obtain ⟨later, hlater⟩ := exists_update_some hheld (store.site tree key) data
  rw [← hstored.held, ← hstored.keepsDirectories.location_eq] at hlater
  refine ⟨later, FileTree.read_eq_ok_iff_content?.mpr ⟨?_, hlater⟩⟩
  exact hplace.of_keepsDirectories hstored.keepsDirectories

/-- Without faults and directories in the way, uploading files that can be read answers. -/
theorem upload_of_room {s : DatasetSettings} {datasets : Datasets} {w : World}
    (hfaultless : w.store.Faultless 2)
    (hpath : ∀ half, (datasets.file half).path = outputPath s half)
    (hread : ∀ half, ∃ content, w.files.read (outputPath s half) = .ok content)
    (hkey : ∀ half, Key.isDirectory (Key.normalize (keyOf s half)) = false)
    (hroom : ∀ half, w.store.Room w.files (keyOf s half)) :
    ∃ last, (upload s datasets).on w = (.ok [keyOf s .train, keyOf s .test], last) := by
  obtain ⟨trainBytes, hreadTrain⟩ := hread .train
  rw [← hpath] at hreadTrain
  obtain ⟨between, htrain, hsame, hnext⟩ :=
    uploadHalf_of_faultless hfaultless hreadTrain (hkey .train) (hroom .train)
  obtain ⟨-, data, -, hstored⟩ := uploadHalf_stored hfaultless.truthful htrain
  obtain ⟨testBytes, hreadTest⟩ := exists_read_of_stored hstored (hread .test)
  rw [← hpath] at hreadTest
  obtain ⟨last, htest, -, -⟩ := uploadHalf_of_faultless hnext hreadTest (hkey .test)
    ((hroom .test).of_sameDirectories hstored.directory hsame)
  refine ⟨last, ?_⟩
  unfold upload
  rw [Action.on_bind_of_ok htrain, Action.on_bind_of_ok htest]
  rfl

/-- A world in which a run needs no download, and neither a fault nor a directory stops it
from building the halves and uploading them. -/
structure Ready (s : Settings) (w : World) (split : Split) (stats : ResampleStats) : Prop where
  outcome : splitOutcome s w.files = .ok (split, stats)
  room : ∀ half, DatasetFile.Room w.files (outputPath s.dataset half)
  /-- The second file is not constructed where the first one is. -/
  kept : ∀ held, ∃ content, withHalf s.dataset split w.files .test
    (withHalf s.dataset split w.files .train held)
      (.inl (w.files.location (outputPath s.dataset .train))) = some content
  key : ∀ half, Key.isDirectory (Key.normalize (keyOf s.dataset half)) = false
  objectRoom : ∀ half, w.store.Room w.files (keyOf s.dataset half)
  faultless : w.store.Faultless 2

/-- What such a run answers. -/
def skippingReport (s : DatasetSettings) (split : Split) (stats : ResampleStats) :
    PipelineReport :=
  ⟨.skipped, ⟨summary s split .train, summary s split .test, stats⟩,
    [keyOf s .train, keyOf s .test]⟩

theorem Ready.run {s : Settings} {w : World} {split : Split} {stats : ResampleStats}
    (hvalid : s.dataset.fault? = none) (h : Ready s w split stats) :
    ∃ last, (run s).on w = (.ok (skippingReport s.dataset split stats), last) := by
  obtain ⟨content, step, hread, -, -⟩ := splitOutcome_eq_ok_iff.mp h.outcome
  obtain ⟨entries, hstage⟩ :=
    stage_of_exists (FileTree.exists?_eq_true_iff.mpr (.inr ⟨content, hread⟩))
  have hsplit := h.outcome
  have hroom := h.room
  rw [← World.files_report w entries] at hsplit hroom
  obtain ⟨built, hbuild, hsame⟩ := build_of_room hsplit hroom
  obtain ⟨found, hfound, hbuilt⟩ := built_of_build hvalid hbuild
  rw [hsplit, Except.ok.injEq, Prod.mk.injEq] at hfound
  obtain ⟨rfl, -⟩ := hfound
  have hstore : built.store = w.store := hbuilt.store
  have hreads : ∀ half, ∃ content, built.files.read (outputPath s.dataset half) = .ok content := by
    intro half
    have hheld : ∃ content,
        built.held (.inl (w.files.location (outputPath s.dataset half))) = some content := by
      rw [hbuilt.held, World.files_report]
      cases half with
      | train => exact h.kept _
      | test => exact ⟨_, Function.update_self ..⟩
    obtain ⟨content, hheld⟩ := hheld
    rw [← World.files_report w entries, ← hsame.1.location_eq] at hheld
    exact ⟨content, FileTree.read_eq_ok_iff_content?.mpr
      ⟨hbuilt.hasPlace _ (outputPath_mem_builtPaths s.dataset half), hheld⟩⟩
  obtain ⟨last, hupload⟩ := upload_of_room (by rw [hstore]; exact h.faultless)
    (fun half => by rw [hbuilt.file]; rfl) hreads h.key
    (fun half => (h.objectRoom half).of_sameDirectories (by rw [hstore]) hsame)
  unfold Pipeline.run
  rw [Action.on_bind_of_ok hstage, Action.on_bind_of_ok hbuild, Action.on_bind_of_ok hupload,
    Action.on_bind_of_ok (Action.on_report _ last), Action.on_pure]
  exact ⟨_, rfl⟩

/-! ## Runs after a run -/

/-- In the later world nothing of an earlier one is lost, no directory stands where a file
is constructed, and the store has no faults. -/
structure Continues (s : Settings) (done again : World) : Prop where
  files : FileTree.Extends done.files again.files
  free : ∀ half, again.files.node? (again.files.location
    (DatasetFile.temporaryPath (outputPath s.dataset half))) ≠ some .directory
  directory : again.store.directory? = done.store.directory?
  faultless : again.store.Faultless 2

theorem Continues.node?_ne {s : Settings} {done again : World}
    (hcontinues : Continues s done again) {location : Location} {content : Bytes}
    (hheld : done.held (.inl location) = some content) :
    again.files.node? location ≠ some .directory := by
  have hnode := hcontinues.files.node _ _ (FileTree.content?_eq_some_iff.mp hheld)
  rw [hnode]
  simp

namespace Ran

variable {s : Settings} {report : PipelineReport} {w done again : World} {t : Trail}
  (h : Ran s report w t done)
include h

variable (hcontinues : Continues s done again)
include hcontinues

theorem keeps_again : FileTree.KeepsDirectories w.files again.files :=
  h.keeps_later.trans hcontinues.files.keepsDirectories

theorem hasPlace_again {path : String} (hpath : path ∈ builtPaths s.dataset) :
    again.files.HasPlace path :=
  (h.built.hasPlace path hpath).of_keepsDirectories
    (h.keeps_of_built.trans hcontinues.files.keepsDirectories)

/-- The files of the run can be written again. -/
theorem room (half : Half) : DatasetFile.Room again.files (outputPath s.dataset half) where
  temporaryPlace := h.hasPlace_again hcontinues (temporaryPath_mem_builtPaths s.dataset half)
  filePlace := h.hasPlace_again hcontinues (outputPath_mem_builtPaths s.dataset half)
  temporary := hcontinues.free half
  file := by
    obtain ⟨content, hheld⟩ := h.held_output half
    rw [(h.keeps_again hcontinues).location_eq]
    exact hcontinues.node?_ne hheld

/-- The objects of the run can be written again. -/
theorem objectRoom (half : Half) : again.store.Room again.files (keyOf s.dataset half) := by
  intro d hd
  rw [hcontinues.directory] at hd
  obtain ⟨data, hheld⟩ := h.held_object half
  have hsite := h.directory?_later.symm.trans hd
  rw [ObjectStore.site, hsite] at hheld
  refine ⟨(h.hasPlace_object half d hd).of_keepsDirectories hcontinues.files.keepsDirectories, ?_⟩
  rw [(h.keeps_again hcontinues).location_eq]
  exact hcontinues.node?_ne hheld

variable {content : Bytes} (hstaged : t.staged.files.read s.source.stagingFile = .ok content)
  (hread : again.files.read s.source.stagingFile = .ok content)
include hstaged hread

omit hcontinues in
theorem split_again :
    splitOutcome s again.files = .ok (t.split, report.datasets.stats) := by
  obtain ⟨found, step, hfound, hstep, hcontent⟩ := splitOutcome_eq_ok_iff.mp h.split
  rw [hstaged, Except.ok.injEq] at hfound
  rw [hfound] at hread
  exact splitOutcome_eq_ok_iff.mpr ⟨found, step, hread, hstep, hcontent⟩

theorem ready : Ready s again t.split report.datasets.stats where
  outcome := h.split_again hstaged hread
  room := h.room hcontinues
  kept held := by
    have hkeeps := h.keeps_again hcontinues
    rw [withHalf_eq hkeeps, withHalf_eq hkeeps, hkeeps.location_eq,
      ← agree_builtSites s.dataset t.split w.files t.staged.held held _
        (output_mem_builtSites s.dataset w.files .train), ← h.held_built]
    exact ⟨_, h.held_train⟩
  key := h.key
  objectRoom := h.objectRoom hcontinues
  faultless := hcontinues.faultless

/-- The run answers again, only without the download. -/
theorem run_again (hvalid : s.dataset.fault? = none) :
    ∃ last, (run s).on again = (.ok { report with staging := .skipped }, last) := by
  have hreport : { report with staging := .skipped } =
      skippingReport s.dataset t.split report.datasets.stats := by
    rw [skippingReport, ← h.uploaded, ← h.built.file, ← h.built.file]
    rfl
  rw [hreport]
  exact (h.ready hcontinues hstaged hread).run hvalid

end Ran

/-- The sites that a run changes. -/
def changedSites (s : DatasetSettings) (w : World) : List Site :=
  w.store.site w.files (keyOf s .test) :: w.store.site w.files (keyOf s .train) ::
    builtSites s w.files

theorem output_mem_changedSites (s : DatasetSettings) (w : World) (half : Half) :
    .inl (w.files.location (outputPath s half)) ∈ changedSites s w := by
  simp only [changedSites, List.mem_cons]
  exact .inr (.inr (output_mem_builtSites s w.files half))

theorem object_mem_changedSites (s : DatasetSettings) (w : World) (half : Half) :
    w.store.site w.files (keyOf s half) ∈ changedSites s w := by
  cases half <;> simp [changedSites]

/-- Two runs from worlds with the same paths hold the same at their sites if they build
the same. -/
theorem Ran.agree {s : Settings} {report other : PipelineReport} {w again done last : World}
    {t u : Trail} (h : Ran s report w t done) (hagain : Ran s other again u last)
    (hkeeps : FileTree.KeepsDirectories w.files again.files)
    (hdirectory : again.store.directory? = w.store.directory?) (hsplit : u.split = t.split) :
    Agree (changedSites s.dataset w) done.held last.held := by
  have hagainBetween : u.between.held = Function.update u.built.held
      (w.store.site w.files (keyOf s.dataset .train)) (some u.trainBytes) := by
    rw [hagain.held_between, site_eq hdirectory hkeeps]
  have hagainLast : last.held = Function.update u.between.held
      (w.store.site w.files (keyOf s.dataset .test)) (some u.testBytes) := by
    rw [hagain.held_last, site_eq hdirectory hkeeps]
  have hbuilt : Agree (builtSites s.dataset w.files) t.built.held u.built.held := by
    rw [h.held_built, hagain.held_built, withHalf_eq hkeeps, withHalf_eq hkeeps, hsplit]
    exact agree_builtSites s.dataset t.split w.files _ _
  have htrain : u.trainBytes = t.trainBytes := by
    have hbytes := hbuilt _ (output_mem_builtSites s.dataset w.files .train)
    rw [h.held_train, ← hkeeps.location_eq, hagain.held_train, Option.some.injEq] at hbytes
    exact hbytes.symm
  have hbetween := hbuilt.update (w.store.site w.files (keyOf s.dataset .train))
    (some t.trainBytes)
  rw [← h.held_between, ← htrain, ← hagainBetween] at hbetween
  have htest : u.testBytes = t.testBytes := by
    have hbytes := hbetween _
      (List.mem_cons_of_mem _ (output_mem_builtSites s.dataset w.files .test))
    rw [h.held_test, ← hkeeps.location_eq, hagain.held_test, Option.some.injEq] at hbytes
    exact hbytes.symm
  have hlast := hbetween.update (w.store.site w.files (keyOf s.dataset .test)) (some t.testBytes)
  rw [← h.held_last, ← htest, ← hagainLast] at hlast
  exact hlast

end Pipeline
end ZoneDemand
