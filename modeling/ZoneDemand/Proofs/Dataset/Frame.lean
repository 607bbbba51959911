import Mathlib.Logic.Function.Basic
import ZoneDemand.Proofs.Dataset.Files
import ZoneDemand.Proofs.FileTree.Contents

/-!
# What writing a dataset file leaves alone

Writing a dataset file, whether it succeeds or fails, changes what the tree holds at two
locations at most, that of the file and that of the file under construction.  If it
succeeds, the first holds the new content and the second nothing.
-/

namespace ZoneDemand
namespace FileTree

theorem content?_of_prepare {tree : FileTree} {path : String} {other : Location}
    (hother : other ≠ tree.location path) :
    (tree.prepare path).1.content? other = tree.content? other := by
  have hextends := extends_makeAncestors tree path
  have hdiffers := prepare_differsAtPath tree path
  rw [← hextends.keepsDirectories.location_eq path] at hother
  rw [hdiffers.content?_eq hother, content?_makeAncestors]

theorem keepsDirectories_prepare (tree : FileTree) (path : String) :
    KeepsDirectories tree (tree.prepare path).1 :=
  (extends_makeAncestors tree path).keepsDirectories.trans
    (prepare_differsAtPath tree path).keepsDirectories

/-- Apart from the locations of two paths, a tree holds what the other holds, and all its
directories. -/
structure Spares (path destination : String) (tree later : FileTree) : Prop where
  keepsDirectories : KeepsDirectories tree later
  content : ∀ other, other ≠ tree.location path → other ≠ tree.location destination →
    later.content? other = tree.content? other

theorem Spares.trans {path destination : String} {first second third : FileTree}
    (hfirst : Spares path destination first second)
    (hsecond : Spares path destination second third) : Spares path destination first third where
  keepsDirectories := hfirst.keepsDirectories.trans hsecond.keepsDirectories
  content other hpath hdestination := by
    have hlocation := hfirst.keepsDirectories.location_eq
    rw [hsecond.content other (by rwa [hlocation]) (by rwa [hlocation]),
      hfirst.content other hpath hdestination]

theorem DiffersAtPath.spares {path : String} {tree later : FileTree}
    (h : DiffersAtPath path tree later) (destination : String) :
    Spares path destination tree later where
  keepsDirectories := h.keepsDirectories
  content _ hother _ := h.content?_eq hother

theorem spares_of_prepare {tree made : FileTree} {path : String} {outcome : Except PathFault Unit}
    (hprepare : tree.prepare path = (made, outcome)) (destination : String) :
    Spares path destination tree made := by
  have hmade : made = (tree.prepare path).1 := by rw [hprepare]
  rw [hmade]
  exact ⟨keepsDirectories_prepare tree path, fun _ hother _ => content?_of_prepare hother⟩

theorem spares_of_complete {tree written : FileTree} {path destination : String} {content : Bytes}
    {outcome : Except PathFault Unit}
    (hcomplete : tree.complete path content destination = (written, outcome)) :
    Spares path destination tree written := by
  have hcompletion := completion tree path content destination
  rw [hcomplete] at hcompletion
  cases hcompletion with
  | failed hlater => exact hlater.spares destination
  | moved hlocation hplace hdirectories _ _ hothers =>
      refine ⟨hdirectories, fun other hpath hdestination => ?_⟩
      rw [← place?_eq_location hlocation] at hpath
      rw [← place?_eq_location hplace] at hdestination
      exact content?_eq_of_node? (hothers other hpath hdestination)

theorem Spares.discard {path destination : String} {tree later : FileTree}
    (h : Spares path destination tree later) :
    Spares path destination tree (later.discard path) :=
  h.trans ((discard_differsAtPath later path).spares destination)

end FileTree

namespace DatasetFile

open FileTree

theorem write_spares (tree : FileTree) (path : String) (series : List Series)
    (categories : Bool) :
    Spares (temporaryPath path) path tree (write tree path series categories).1 := by
  have hwriting := writing tree path series categories
  generalize write tree path series categories = result at hwriting
  cases hwriting with
  | unprepared hprepare => exact (spares_of_prepare hprepare path).discard
  | incomplete hprepare hcomplete =>
      exact ((spares_of_prepare hprepare path).trans (spares_of_complete hcomplete)).discard
  | complete hprepare hcomplete =>
      exact (spares_of_prepare hprepare path).trans (spares_of_complete hcomplete)

section Written

variable {tree later : FileTree} {path : String} {bytes : Bytes} {source place : Location}

theorem Written.hasPlace (h : Written tree later path bytes source place) :
    later.HasPlace (temporaryPath path) ∧ later.HasPlace path :=
  ⟨hasPlace_of_place? h.sourcePlace, hasPlace_of_place? h.filePlace⟩

theorem Written.location_eq (h : Written tree later path bytes source place) :
    source = tree.location (temporaryPath path) ∧ place = tree.location path := by
  have hlocation := h.keepsDirectories.location_eq
  rw [← hlocation, ← hlocation]
  exact ⟨place?_eq_location h.sourcePlace, place?_eq_location h.filePlace⟩

theorem Written.temporary_ne (h : Written tree later path bytes source place) :
    later.node? (tree.location (temporaryPath path)) ≠ some .directory := by
  rw [← h.location_eq.1]
  by_cases hsame : source = place
  · rw [hsame, h.node]
    simp
  · rw [h.gone hsame]
    simp

theorem Written.content?_eq (h : Written tree later path bytes source place)
    (hspares : Spares (temporaryPath path) path tree later) :
    later.content? = Function.update
      (Function.update tree.content? (tree.location (temporaryPath path)) none)
      (tree.location path) (some bytes) := by
  obtain ⟨hsource, hplace⟩ := h.location_eq
  funext other
  by_cases hpath : other = tree.location path
  · rw [hpath, Function.update_self, ← hplace]
    exact content?_eq_some_iff.mpr h.node
  rw [Function.update_of_ne hpath]
  by_cases htemporary : other = tree.location (temporaryPath path)
  · rw [htemporary, Function.update_self, ← hsource, content?, h.gone]
    rw [hsource, hplace]
    exact fun hsame => hpath (htemporary.trans hsame)
  · rw [Function.update_of_ne htemporary]
    exact hspares.content other htemporary hpath

end Written

end DatasetFile

/-! ## Writing where there is room -/

namespace FileTree

theorem SameDirectories.node?_ne {tree later : FileTree} (h : SameDirectories tree later)
    {location : Location} (hnode : tree.node? location ≠ some .directory) :
    later.node? location ≠ some .directory :=
  fun hlater => hnode (h.2.directory location hlater)

theorem write_of_hasPlace {tree : FileTree} {path : String} (hplace : tree.HasPlace path)
    (hnode : tree.node? (tree.location path) ≠ some .directory) (content : Bytes) :
    ∃ written, tree.write path content = .ok written ∧ SameDirectories tree written ∧
      written.node? (tree.location path) = some (.file content) := by
  have hne := ne_nil_of_place? hplace
  refine ⟨_, write_eq_ok_iff.mpr ⟨_, hplace, hnode, rfl⟩, ?_, node?_set_self tree _ hne⟩
  exact (differsAt_set hne hnode).sameDirectories

theorem rename_of_hasPlace {tree : FileTree} {source destination : String} {content : Bytes}
    (hsource : tree.HasPlace source)
    (hcontent : tree.node? (tree.location source) = some (.file content))
    (hdestination : tree.HasPlace destination)
    (hnode : tree.node? (tree.location destination) ≠ some .directory) :
    ∃ moved, tree.rename source destination = .ok moved ∧ SameDirectories tree moved := by
  refine ⟨_, rename_eq_ok_iff.mpr ⟨_, _, _, hsource, hcontent, hdestination, hnode, rfl⟩, ?_⟩
  split
  · exact .refl tree
  · have herase : DiffersAt (tree.location source) tree (tree.erase (tree.location source)) :=
      differsAt_erase (ne_nil_of_place? hsource) (by simp [hcontent])
    exact herase.sameDirectories.trans
      (differsAt_set (ne_nil_of_place? hdestination)
        (herase.sameDirectories.node?_ne hnode)).sameDirectories

theorem DiffersAtPath.sameDirectories {path : String} {tree later : FileTree}
    (h : DiffersAtPath path tree later) : SameDirectories tree later := by
  rcases h with rfl | ⟨location, -, h⟩
  · exact .refl later
  · exact h.sameDirectories

theorem sameDirectories_of_complete {tree later : FileTree} {path destination : String}
    {content : Bytes} (hcomplete : tree.complete path content destination = (later, .ok ())) :
    SameDirectories tree later := by
  have hcompletion := completion tree path content destination
  rw [hcomplete] at hcompletion
  cases hcompletion with
  | @moved _ location place _ _ hdirectories hnode hgone hothers =>
      refine ⟨hdirectories, hdirectories.workingDirectory.symm, fun other hother => ?_⟩
      by_cases hplace : other = place
      · rw [hplace, hnode] at hother
        simp at hother
      by_cases hlocation : other = location
      · rw [hlocation, hgone (hlocation ▸ hplace)] at hother
        contradiction
      · rw [← hothers other hlocation hplace]
        exact hother

end FileTree

namespace DatasetFile

open FileTree

/-- Where the directories above exist, writing a file makes none. -/
theorem sameDirectories_of_write {tree later : FileTree} {path : String} {series : List Series}
    {categories : Bool} {file : DatasetFile} (hancestors : HasAncestors tree (temporaryPath path))
    (hwrite : write tree path series categories = (later, .ok file)) :
    SameDirectories tree later := by
  obtain ⟨-, made, hmade, hcomplete⟩ := write_eq_ok_iff.mp hwrite
  have hprepare := prepare_differsAtPath tree (temporaryPath path)
  rw [makeAncestors_of_hasAncestors hancestors, hmade] at hprepare
  exact hprepare.sameDirectories.trans (sameDirectories_of_complete hcomplete)

/-- No directory stands where the file or the file under construction goes. -/
structure Room (tree : FileTree) (path : String) : Prop where
  temporaryPlace : tree.HasPlace (temporaryPath path)
  filePlace : tree.HasPlace path
  temporary : tree.node? (tree.location (temporaryPath path)) ≠ some .directory
  file : tree.node? (tree.location path) ≠ some .directory

theorem Room.of_sameDirectories {tree later : FileTree} {path : String} (hroom : Room tree path)
    (h : SameDirectories tree later) : Room later path where
  temporaryPlace := hroom.temporaryPlace.of_keepsDirectories h.1
  filePlace := hroom.filePlace.of_keepsDirectories h.1
  temporary := by
    rw [h.1.location_eq]
    exact h.node?_ne hroom.temporary
  file := by
    rw [h.1.location_eq]
    exact h.node?_ne hroom.file

theorem write_of_room {tree : FileTree} {path : String} (hroom : Room tree path)
    (series : List Series) (categories : Bool) :
    ∃ later, write tree path series categories =
        (later, .ok ⟨path, series.length, (content (recordLines categories series)).length⟩) ∧
      SameDirectories tree later := by
  obtain ⟨created, hcreated, hsame, -⟩ :=
    write_of_hasPlace hroom.temporaryPlace hroom.temporary []
  have hcreatedRoom := hroom.of_sameDirectories hsame
  obtain ⟨written, hwritten, hsameWritten, hnode⟩ := write_of_hasPlace
    hcreatedRoom.temporaryPlace hcreatedRoom.temporary (content (recordLines categories series))
  have hwrittenRoom := hcreatedRoom.of_sameDirectories hsameWritten
  rw [← hsameWritten.1.location_eq] at hnode
  obtain ⟨moved, hmoved, hsameMoved⟩ := rename_of_hasPlace hwrittenRoom.temporaryPlace hnode
    hwrittenRoom.filePlace hwrittenRoom.file
  have hancestors := makeAncestors_of_hasAncestors (hasAncestors_of_place? hroom.temporaryPlace)
  have hprepare : tree.prepare (temporaryPath path) = (created, .ok ()) := by
    simp only [prepare, hancestors, hcreated]
  have hcomplete : created.complete (temporaryPath path)
      (content (recordLines categories series)) path = (moved, .ok ()) := by
    simp only [complete, hwritten, hmoved]
  exact ⟨moved, write_eq_ok_iff.mpr ⟨rfl, created, hprepare, hcomplete⟩,
    (hsame.trans hsameWritten).trans hsameMoved⟩

end DatasetFile
end ZoneDemand
