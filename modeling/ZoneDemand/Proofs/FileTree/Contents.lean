import Mathlib.Logic.Function.Basic
import ZoneDemand.Proofs.FileTree.Replacement

/-!
# The contents of a tree

A path that leads to a name in a directory leads to a location that its text and the
working directory alone decide, so two paths can be told apart without a tree.  What a
tree holds is a function from locations to contents: making directories leaves it as it
is, and an operation on a file changes it at the location of the file only.
-/

namespace ZoneDemand
namespace Path

def go (directory : Location) (name : String) : Location :=
  if name = "." then directory
  else if name = ".." then directory.dropLast
  else directory ++ [name]

/-- Where a path leads, seen from a working directory, if every name on the way is that of
a directory. -/
def location (workingDirectory : Location) (path : String) : Location :=
  (steps path).foldl go (if isAbsolute path then [] else workingDirectory)

theorem go_of_ordinary {name : String} (hdot : name ≠ ".") (hup : name ≠ "..")
    (directory : Location) : go directory name = directory ++ [name] := by
  simp [go, hdot, hup]

end Path

namespace FileTree

variable {tree later : FileTree}

def location (tree : FileTree) (path : String) : Location :=
  Path.location tree.workingDirectory path

theorem KeepsDirectories.location_eq (h : KeepsDirectories tree later) (path : String) :
    later.location path = tree.location path := by
  rw [location, h.workingDirectory, location]

theorem enter_eq {directory next : Location} {name : String}
    (henter : tree.enter directory name = .ok next) : next = Path.go directory name := by
  unfold enter at henter
  unfold Path.go
  by_cases hdot : name = "."
  · simpa [hdot, eq_comm] using henter
  by_cases hup : name = ".."
  · simpa [hup, eq_comm] using henter
  simp only [hdot, hup, if_false] at henter ⊢
  split at henter
  · contradiction
  · split at henter
    · contradiction
    · contradiction
    · exact (Except.ok.inj henter).symm

theorem walk_eq {directory next : Location} {names : List String}
    (hwalk : tree.walk directory names = .ok next) : next = names.foldl Path.go directory := by
  induction names generalizing directory with
  | nil => exact (Except.ok.inj hwalk).symm
  | cons name rest ih =>
      simp only [walk] at hwalk
      cases henter : tree.enter directory name with
      | error fault => simp [henter] at hwalk
      | ok between =>
          simp only [henter] at hwalk
          rw [List.foldl_cons, ← enter_eq henter]
          exact ih hwalk

theorem follow_entry {slash last : Bool} {directory parent : Location} {names : List String}
    {name : String} (hfollow : tree.follow slash directory names = .ok (.entry parent name last)) :
    name ≠ "." ∧ name ≠ ".." := by
  induction names generalizing directory with
  | nil => simp [follow] at hfollow
  | cons first rest ih =>
      cases rest with
      | nil =>
          unfold follow at hfollow
          by_cases hdot : first = "."
          · simp [hdot] at hfollow
          by_cases hup : first = ".."
          · simp [hup] at hfollow
          rw [if_neg hdot, if_neg hup] at hfollow
          split at hfollow
          · contradiction
          · simp only [Except.ok.injEq, Target.entry.injEq] at hfollow
            rw [← hfollow.2.1]
            exact ⟨hdot, hup⟩
      | cons second rest =>
          simp only [follow] at hfollow
          cases henter : tree.enter directory first with
          | error fault => simp [henter] at hfollow
          | ok next =>
              simp only [henter] at hfollow
              exact ih hfollow

theorem place?_eq_location {path : String} {place : Location}
    (hplace : tree.place? path = some place) : place = tree.location path := by
  obtain ⟨parent, name, htarget, rfl⟩ := place?_eq_some_iff.mp hplace
  obtain ⟨-, before, hsteps, hwalk⟩ := walk_of_target htarget
  obtain ⟨hdot, hup⟩ := follow_entry (target_eq_ok_iff.mp htarget).2
  rw [location, Path.location, hsteps, List.foldl_append, ← base, ← walk_eq hwalk,
    List.foldl_cons, List.foldl_nil, Path.go_of_ordinary hdot hup]

/-! ## Contents -/

def content? (tree : FileTree) (location : Location) : Option Bytes :=
  match tree.node? location with
  | some (.file content) => some content
  | _ => none

theorem content?_eq_some_iff {location : Location} {content : Bytes} :
    tree.content? location = some content ↔ tree.node? location = some (.file content) := by
  unfold content?
  split <;> simp_all

theorem content?_eq_of_node? {location : Location}
    (hnode : later.node? location = tree.node? location) :
    later.content? location = tree.content? location := by
  rw [content?, hnode, content?]

/-- The path leads to a name in a directory. -/
def HasPlace (tree : FileTree) (path : String) : Prop :=
  tree.place? path = some (tree.location path)

instance (tree : FileTree) (path : String) : Decidable (tree.HasPlace path) :=
  inferInstanceAs (Decidable (_ = _))

theorem hasPlace_of_place? {path : String} {place : Location}
    (hplace : tree.place? path = some place) : tree.HasPlace path := by
  rw [HasPlace, ← place?_eq_location hplace]
  exact hplace

theorem HasPlace.of_keepsDirectories {path : String} (hplace : tree.HasPlace path)
    (h : KeepsDirectories tree later) : later.HasPlace path :=
  hasPlace_of_place? (place?_of_keepsDirectories h hplace)

theorem read_eq_ok_iff_content? {path : String} {content : Bytes} :
    tree.read path = .ok content ↔
      tree.HasPlace path ∧ tree.content? (tree.location path) = some content := by
  rw [read_eq_ok_iff]
  constructor
  · rintro ⟨place, hplace, hnode⟩
    rw [← place?_eq_location hplace]
    exact ⟨hasPlace_of_place? hplace, content?_eq_some_iff.mpr hnode⟩
  · rintro ⟨hplace, hcontent⟩
    exact ⟨_, hplace, content?_eq_some_iff.mp hcontent⟩

theorem DiffersAtPath.content?_eq {path : String} (h : DiffersAtPath path tree later)
    {other : Location} (hother : other ≠ tree.location path) :
    later.content? other = tree.content? other := by
  apply content?_eq_of_node?
  apply h.node?_eq
  intro hplace
  exact hother (place?_eq_location hplace)

theorem toOption_read {path : String}
    (hplace : tree.HasPlace path) :
    (tree.read path).toOption = tree.content? (tree.location path) := by
  cases hread : tree.read path with
  | ok content => exact (read_eq_ok_iff_content?.mp hread).2.symm
  | error fault =>
      cases hcontent : tree.content? (tree.location path) with
      | none => rfl
      | some content =>
          rw [read_eq_ok_iff_content?.mpr ⟨hplace, hcontent⟩] at hread
          contradiction

theorem content?_of_write {written : FileTree} {path : String} {content : Bytes}
    (hwrite : tree.write path content = .ok written) :
    tree.HasPlace path ∧ DiffersAtPath path tree written ∧
      written.content? = Function.update tree.content? (tree.location path) (some content) := by
  have hdiffers := write_differsAtPath hwrite
  obtain ⟨place, hplace, -, rfl⟩ := write_eq_ok_iff.mp hwrite
  have hlocation := place?_eq_location hplace
  refine ⟨hasPlace_of_place? hplace, hdiffers, ?_⟩
  funext other
  by_cases hother : other = tree.location path
  · rw [hother, Function.update_self, ← hlocation]
    exact content?_eq_some_iff.mpr (node?_set_self tree _ (ne_nil_of_place? hplace))
  · rw [Function.update_of_ne hother]
    exact hdiffers.content?_eq hother

/-! ## Making directories -/

theorem content?_makeDirectory {path : String} (hmade : tree.makeDirectory path = .ok later) :
    later.content? = tree.content? := by
  obtain ⟨parent, name, slash, -, hfree, rfl⟩ := makeDirectory_eq_ok_iff.mp hmade
  funext other
  by_cases hother : other = parent ++ [name]
  · subst other
    rw [content?, node?_set_self tree _ (by simp), content?, hfree]
  · exact content?_eq_of_node? (node?_set_of_ne tree _ (by simp) hother)

theorem content?_makeDirectoriesUpTo (depth : Nat) (tree : FileTree) (path : String) :
    (tree.makeDirectoriesUpTo depth path).1.content? = tree.content? := by
  induction depth generalizing path with
  | zero => rfl
  | succ depth ih =>
      by_cases hempty : path = ""
      · rw [makeDirectoriesUpTo_of_directory depth (.inl hempty)]
      generalize hresult : tree.makeDirectoriesUpTo (depth + 1) path = result
      have habove : ∀ {parent above outcome},
          tree.makeDirectoriesUpTo depth parent = (above, outcome) →
            above.content? = tree.content? := by
        intro parent above outcome hmade
        rw [← ih parent, hmade]
      cases hresult ▸ climb tree hempty depth with
      | made hmade => exact content?_makeDirectory hmade
      | there _ => rfl
      | refused _ _ _ => rfl
      | top _ _ => rfl
      | aboveFailed _ hparent => exact habove hparent
      | aboveMade _ hparent hmade => exact (content?_makeDirectory hmade).trans (habove hparent)
      | aboveThere _ hparent _ => exact habove hparent
      | aboveRefused _ hparent _ _ => exact habove hparent

theorem content?_makeAncestors (tree : FileTree) (path : String) :
    (tree.makeAncestors path).1.content? = tree.content? := by
  cases hancestor : Path.ancestor? path with
  | none => rw [makeAncestors_of_none hancestor]
  | some ancestor =>
      rw [makeAncestors_of_some hancestor]
      exact content?_makeDirectoriesUpTo _ tree ancestor

/-! ## Trees with the same directories -/

def SameDirectories (tree later : FileTree) : Prop :=
  KeepsDirectories tree later ∧ KeepsDirectories later tree

theorem SameDirectories.refl (tree : FileTree) : SameDirectories tree tree :=
  ⟨(Extends.refl tree).keepsDirectories, (Extends.refl tree).keepsDirectories⟩

theorem SameDirectories.trans {last : FileTree} (hfirst : SameDirectories tree later)
    (hsecond : SameDirectories later last) : SameDirectories tree last :=
  ⟨hfirst.1.trans hsecond.1, hsecond.2.trans hfirst.2⟩

theorem DiffersAt.sameDirectories {location : Location} (h : DiffersAt location tree later) :
    SameDirectories tree later :=
  ⟨h.keepsDirectories, h.symm.keepsDirectories⟩

end FileTree
end ZoneDemand
