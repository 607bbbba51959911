import ZoneDemand.Proofs.Dataset.Frame
import ZoneDemand.Proofs.FileTree.Siblings
import ZoneDemand.Proofs.Instant.Order

/-!
# A dataset file is replaced as a whole or not at all

If writing answers, the file holds the new lines and the file under construction is gone; if
it fails, what was at the path is as it was and no file under construction is left.  Besides
these two, only directories above the path may be new.  They stay after a failure, and may
themselves be what the path leads to.
-/

namespace ZoneDemand
namespace FileTree

theorem exists?_of_node?_eq_none {tree : FileTree} {path : String} {location : Location}
    (hplace : tree.place? path = some location) (hnode : tree.node? location = none) :
    tree.exists? path = false := by
  obtain ⟨parent, name, htarget, rfl⟩ := place?_eq_some_iff.mp hplace
  simp [exists?, stat, htarget, hnode, Except.isOk, Except.toBool]

end FileTree

namespace DatasetFile

open FileTree

theorem ordinary_tmp : Path.Ordinary ".tmp" where
  ne_empty := by decide
  noSlash := by decide
  ne_dot := by decide
  ne_up := by decide

/-- The location of a directory above a path, one of the names that it passes before its
last. -/
def Above (tree : FileTree) (path : String) : Location → Prop :=
  Path.Passes (tree.base path) (Path.steps path).dropLast

/-- The file has been replaced, and nothing else has changed. -/
structure Replaced (tree later : FileTree) (path : String) (bytes : Bytes) : Prop where
  read : later.read path = .ok bytes
  gone : later.exists? (temporaryPath path) = false
  others : ∀ other, other ≠ tree.location path → other ≠ tree.location (temporaryPath path) →
    KeptOrMade (Above tree path) tree later other

/-- The file has not been replaced.  If the path led anywhere, nothing but the file under
construction has changed; else it leads to what is there once the directories above it have
been made. -/
structure Refused (tree later : FileTree) (path : String) : Prop where
  keepsDirectories : KeepsDirectories tree later
  gone : ∀ bytes, later.read (temporaryPath path) ≠ .ok bytes
  others : ∀ other, other ≠ tree.location (temporaryPath path) →
    KeptOrMade (Above tree path) tree later other
  unchanged : tree.exists? path = true → ∀ other, other ≠ tree.location (temporaryPath path) →
    later.node? other = tree.node? other
  file : ∀ bytes, tree.read path = .ok bytes → later.read path = .ok bytes
  exists? : later.exists? path = (tree.makeAncestors (temporaryPath path)).1.exists? path

section Construction

variable {tree later : FileTree} {path : String}
  (hlater : DiffersAtPath (temporaryPath path) (tree.makeAncestors (temporaryPath path)).1 later)
include hlater

theorem keptOrMade_of_construction {other : Location}
    (hother : other ≠ tree.location (temporaryPath path)) :
    KeptOrMade (Above tree path) tree later other := by
  have hextends := extends_makeAncestors tree (temporaryPath path)
  have hmade := (keptOrMade_makeAncestors tree (temporaryPath path) other).mono
    (passes_of_sibling ordinary_tmp (by decide))
  refine hmade.of_node?_eq (hlater.node?_eq fun hplace => hother ?_)
  rw [place?_eq_location hplace, hextends.keepsDirectories.location_eq]

theorem refused_of_construction (hgone : ∀ bytes, later.read (temporaryPath path) ≠ .ok bytes) :
    Refused tree later path where
  keepsDirectories := (extends_makeAncestors tree (temporaryPath path)).keepsDirectories.trans
    hlater.keepsDirectories
  gone := hgone
  others _ hother := keptOrMade_of_construction hlater hother
  unchanged hexists other hother := by
    have hancestors : HasAncestors tree (temporaryPath path) :=
      hasAncestors_sibling ordinary_tmp (by decide) hexists
    rw [makeAncestors_of_hasAncestors hancestors] at hlater
    exact hlater.node?_eq fun hplace => hother (place?_eq_location hplace)
  file bytes hread := by
    have hmade := (extends_makeAncestors tree (temporaryPath path)).read hread
    obtain ⟨location, hplace, hnode⟩ := read_eq_ok_iff.mp hmade
    refine read_eq_ok_iff.mpr ⟨location, by rw [hlater.place?_eq, hplace], ?_⟩
    rw [hlater.node?_eq fun hsibling =>
      place?_ne_of_place?_sibling ordinary_tmp (by decide) hsibling hplace]
    exact hnode
  exists? := hlater.exists?_eq fun _ hsibling =>
    place?_ne_of_place?_sibling ordinary_tmp (by decide) hsibling

end Construction

theorem replaced_of_complete {tree made later : FileTree} {path : String} {bytes : Bytes}
    (hprepare : tree.prepare (temporaryPath path) = (made, .ok ()))
    (hcomplete : made.complete (temporaryPath path) bytes path = (later, .ok ())) :
    Replaced tree later path bytes := by
  have hmade := prepare_differsAtPath tree (temporaryPath path)
  have hcompletion := completion made (temporaryPath path) bytes path
  rw [hprepare] at hmade
  rw [hcomplete] at hcompletion
  cases hcompletion with
  | @moved _ source place hsource hplace hdirectories hnode hgone hothers =>
      have hlaterPlaces : later.place? (temporaryPath path) = some source ∧
          later.place? path = some place :=
        ⟨place?_of_keepsDirectories hdirectories hsource,
          place?_of_keepsDirectories hdirectories hplace⟩
      have hne : source ≠ place := by
        rintro rfl
        exact place?_ne_of_place?_sibling ordinary_tmp (by decide) hsource hplace
      have hlocation : ∀ other, made.location other = tree.location other := by
        intro other
        rw [hmade.keepsDirectories.location_eq,
          (extends_makeAncestors tree (temporaryPath path)).keepsDirectories.location_eq]
      constructor
      · exact read_eq_ok_iff.mpr ⟨place, hlaterPlaces.2, hnode⟩
      · exact exists?_of_node?_eq_none hlaterPlaces.1 (hgone hne)
      · intro other hpath htemporary
        refine (keptOrMade_of_construction hmade htemporary).of_node?_eq ?_
        rw [← hlocation, ← place?_eq_location hplace] at hpath
        rw [← hlocation, ← place?_eq_location hsource] at htemporary
        exact hothers other htemporary hpath

/-- Whatever the tree, the path and the series, writing replaces the file as a whole or leaves
it as it was. -/
theorem write_atomic (tree : FileTree) (path : String) (series : List Series)
    (categories : Bool) :
    match write tree path series categories with
    | (later, .ok _) => Replaced tree later path (content (recordLines categories series))
    | (later, .error _) => Refused tree later path := by
  have hprepared := prepare_differsAtPath tree (temporaryPath path)
  have hwriting := writing tree path series categories
  generalize write tree path series categories = result at hwriting ⊢
  cases hwriting with
  | @unprepared made _ hprepare =>
      rw [hprepare] at hprepared
      exact refused_of_construction (hprepared.trans (discard_differsAtPath made _))
        (read_discard made _)
  | @incomplete made written e hprepare hcomplete =>
      rw [hprepare] at hprepared
      have hcompletion := completion made (temporaryPath path)
        (content (recordLines categories series)) path
      rw [hcomplete] at hcompletion
      cases hcompletion with
      | failed hlater =>
          exact refused_of_construction
            ((hprepared.trans hlater).trans (discard_differsAtPath written _))
            (read_discard written _)
  | complete hprepare hcomplete => exact replaced_of_complete hprepare hcomplete

def twoCounts : List Series := [⟨"a", midnight, tenMinutes, [1, 2]⟩]

/-- Where nothing was, the path leads to a directory that has been made above it. -/
theorem write_bare_leaves_directory :
    FileTree.bare.exists? "x/../x" = false ∧
      (write .bare "x/../x" twoCounts false).2 = .error (.file "x/../x" .isDirectory) ∧
      (write .bare "x/../x" twoCounts false).1.stat "x/../x" = .ok .directory := by
  refine ⟨by decide +kernel, by decide +kernel, by decide +kernel⟩

end DatasetFile
end ZoneDemand
