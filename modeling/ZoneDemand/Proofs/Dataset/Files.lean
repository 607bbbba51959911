import ZoneDemand.Proofs.Dataset.Composition
import ZoneDemand.Proofs.FileTree.Replacement

/-!
# The files of a build

Writing a dataset file leaves its content at its path and nothing at the path of the file
under construction; every other file is as it was.  The second file of a build therefore
spares the first one, unless that bears the name under which the second is constructed.
-/

namespace ZoneDemand
namespace DatasetFile

/-- What writing a dataset file has done to a tree: `source` is the location of the file
under construction and `place` that of the file. -/
structure Written (tree later : FileTree) (path : String) (bytes : Bytes)
    (source place : Location) : Prop where
  keepsDirectories : FileTree.KeepsDirectories tree later
  sourcePlace : later.place? (temporaryPath path) = some source
  filePlace : later.place? path = some place
  node : later.node? place = some (.file bytes)
  gone : source ≠ place → later.node? source = none
  others : ∀ other content, other ≠ source → other ≠ place →
    tree.node? other = some (.file content) → later.node? other = some (.file content)

theorem Written.read {tree later : FileTree} {path : String} {bytes : Bytes}
    {source place : Location} (h : Written tree later path bytes source place) :
    later.read path = .ok bytes :=
  FileTree.read_eq_ok_iff.mpr ⟨place, h.filePlace, h.node⟩

section Writing

variable {tree : FileTree} {path : String} {series : List Series} {categories : Bool}

/-- What writing answers, by the first step that fails. -/
inductive Writing (tree : FileTree) (path : String) (series : List Series) (categories : Bool) :
    FileTree × Except DataError DatasetFile → Prop where
  | unprepared {made : FileTree} {e : PathFault}
      (hprepare : tree.prepare (temporaryPath path) = (made, .error e)) :
      Writing tree path series categories
        (made.discard (temporaryPath path), .error (.file e.path e.fault))
  | incomplete {made written : FileTree} {e : PathFault}
      (hprepare : tree.prepare (temporaryPath path) = (made, .ok ()))
      (hcomplete : made.complete (temporaryPath path) (content (recordLines categories series))
        path = (written, .error e)) :
      Writing tree path series categories
        (written.discard (temporaryPath path), .error (.file e.path e.fault))
  | complete {made written : FileTree}
      (hprepare : tree.prepare (temporaryPath path) = (made, .ok ()))
      (hcomplete : made.complete (temporaryPath path) (content (recordLines categories series))
        path = (written, .ok ())) :
      Writing tree path series categories
        (written, .ok ⟨path, series.length, (content (recordLines categories series)).length⟩)

theorem writing (tree : FileTree) (path : String) (series : List Series) (categories : Bool) :
    Writing tree path series categories (write tree path series categories) := by
  unfold write
  simp only
  split
  · rename_i made e hmade
    exact .unprepared hmade
  · rename_i made hmade
    split
    · rename_i written e hwritten
      exact .incomplete hmade hwritten
    · rename_i written hwritten
      exact .complete hmade hwritten

theorem write_eq_ok_iff {later : FileTree} {file : DatasetFile} :
    write tree path series categories = (later, .ok file) ↔
      file = ⟨path, series.length, (content (recordLines categories series)).length⟩ ∧
        ∃ made, tree.prepare (temporaryPath path) = (made, .ok ()) ∧
          made.complete (temporaryPath path) (content (recordLines categories series)) path =
            (later, .ok ()) := by
  constructor
  · intro hwrite
    have hwriting := writing tree path series categories
    rw [hwrite] at hwriting
    cases hwriting with
    | complete hprepare hcomplete => exact ⟨rfl, _, hprepare, hcomplete⟩
  · rintro ⟨rfl, made, hprepare, hcomplete⟩
    unfold write
    simp only
    rw [hprepare]
    simp only
    rw [hcomplete]

theorem write_eq_ok {later : FileTree} {file : DatasetFile}
    (hwrite : write tree path series categories = (later, .ok file)) :
    file = ⟨path, series.length, (content (recordLines categories series)).length⟩ ∧
      ∃ source place, Written tree later path (content (recordLines categories series))
        source place := by
  obtain ⟨hfile, made, hmade, hcomplete⟩ := write_eq_ok_iff.mp hwrite
  refine ⟨hfile, ?_⟩
  have hextends := FileTree.extends_makeAncestors tree (temporaryPath path)
  have hprepare := FileTree.prepare_differsAtPath tree (temporaryPath path)
  have hcompletion := FileTree.completion made (temporaryPath path)
    (content (recordLines categories series)) path
  rw [hmade] at hprepare
  rw [hcomplete] at hcompletion
  cases hcompletion with
  | @moved _ source place hsource hplace hdirectories hnode hgone hothers =>
      have hplaces : ∀ {other location}, made.place? other = some location →
          later.place? other = some location :=
        FileTree.place?_of_keepsDirectories hdirectories
      refine ⟨source, place, ?_, hplaces hsource, hplaces hplace, hnode, hgone, ?_⟩
      · exact (hextends.keepsDirectories.trans hprepare.keepsDirectories).trans hdirectories
      · intro other content hother hneplace hfile
        rw [hprepare.place?_eq] at hsource
        rw [hothers other hother hneplace, hprepare.node?_eq]
        · exact hextends.node other _ hfile
        · rw [hsource]
          rintro ⟨⟩
          exact hother rfl

end Writing

end DatasetFile

namespace Pipeline

def fileBytes (s : DatasetSettings) (split : Split) (half : Half) : Bytes :=
  DatasetFile.content (recordLines s.categories (split.half half))

def halfWritten (s : DatasetSettings) (split : Split) (half : Half) (files : FileTree) :
    FileTree × Except DataError DatasetFile :=
  DatasetFile.write files (outputPath s half) (split.half half) s.categories

theorem writeHalf_on (s : DatasetSettings) (split : Split) (half : Half) (w : World) :
    ∃ entries, (writeHalf s split half).on w =
      ((halfWritten s split half w.files).2.mapError fun e => .ofCause (.data e),
        { w.report entries with files := (halfWritten s split half w.files).1 }) := by
  unfold writeHalf ofData Transform.writeDataset halfWritten
  rw [Action.on_mapFailure, Action.on_bind_of_ok (Action.on_report _ w), Action.on_onFiles,
    World.files_report]
  generalize DatasetFile.write w.files _ _ _ = result
  exact ⟨_, rfl⟩

theorem writeHalf_eq_ok {s : DatasetSettings} {split : Split} {half : Half} {w later : World}
    {file : DatasetFile} (hwrite : (writeHalf s split half).on w = (.ok file, later)) :
    file = ⟨outputPath s half, (split.half half).length, (fileBytes s split half).length⟩ ∧
      ∃ source place, DatasetFile.Written w.files later.files (outputPath s half)
        (fileBytes s split half) source place := by
  obtain ⟨entries, hon⟩ := writeHalf_on s split half w
  cases hresult : halfWritten s split half w.files with
  | mk files result =>
      rw [hon, hresult, Prod.mk.injEq, mapError_eq_ok_iff] at hwrite
      obtain ⟨rfl, rfl⟩ := hwrite
      exact DatasetFile.write_eq_ok hresult

/-- The file that a build reports for a half is there and holds the lines of the half, and
the report counts its lines and its bytes. -/
structure LeavesFile (s : DatasetSettings) (split : Split) (datasets : Datasets)
    (files : FileTree) (half : Half) : Prop where
  path : (datasets.file half).path = outputPath s half
  read : files.read (datasets.file half).path = .ok (fileBytes s split half)
  records : (datasets.file half).records =
    (recordLines s.categories (split.half half)).length
  bytes : (datasets.file half).bytes = (fileBytes s split half).length

theorem length_recordLines (categories : Bool) (series : List Series) :
    (recordLines categories series).length = series.length := by
  simp [recordLines, seriesRecords]

theorem leavesFile_iff {s : DatasetSettings} {split : Split} {datasets : Datasets}
    {files : FileTree} {half : Half} (hfile : datasets.file half =
      ⟨outputPath s half, (split.half half).length, (fileBytes s split half).length⟩) :
    LeavesFile s split datasets files half ↔
      files.read (outputPath s half) = .ok (fileBytes s split half) := by
  constructor
  · intro h
    have hread := h.read
    rw [hfile] at hread
    exact hread
  · intro hread
    constructor
    · rw [hfile]
    · rw [hfile]
      exact hread
    · rw [hfile, length_recordLines]
    · rw [hfile]

/-! ## The names of the two files -/

theorem dataset_valid {s : Settings} (hvalid : s.fault? = none) : s.dataset.fault? = none := by
  unfold Settings.fault? Settings.earlyFault? at hvalid
  cases hsource : s.source.fault? with
  | some fault => simp [hsource] at hvalid
  | none =>
      cases hdataset : s.dataset.fault? with
      | some fault => simp [hsource, hdataset] at hvalid
      | none => rfl

theorem bare_fileName {s : DatasetSettings} (hvalid : s.fault? = none) (half : Half) :
    Path.Bare (s.fileName half) := by
  have hnone : s.fileFault? half = none := by
    unfold DatasetSettings.fault? at hvalid
    cases htrain : s.fileFault? .train with
    | some fault => simp [htrain] at hvalid
    | none =>
        cases htest : s.fileFault? .test with
        | some fault => simp [htrain, htest] at hvalid
        | none => cases half <;> assumption
  unfold DatasetSettings.fileFault? at hnone
  constructor
  · intro hempty
    simp [hempty] at hnone
  · intro hslash
    by_cases hempty : s.fileName half = ""
    · simp [hempty] at hslash
    · simp [hempty, hslash] at hnone

theorem fileNames_ne {s : DatasetSettings} (hvalid : s.fault? = none) :
    s.trainFile ≠ s.testFile := by
  intro hsame
  simp [DatasetSettings.fault?, hsame] at hvalid

end Pipeline
end ZoneDemand
