import ZoneDemand.FileTree.Replace
import ZoneDemand.Proofs.Association

/-!
# What changes in a file tree

Every operation on a file tree sets or erases single entries.  Which path leads where
depends on the directories alone, so an operation that changes a file moves no other
path, and one that adds directories only makes more paths lead somewhere.
-/

namespace ZoneDemand
namespace FileTree

section Nodes

variable (tree : FileTree) {location other : Location} (node : Node)

@[simp] theorem workingDirectory_set :
    (tree.set location node).workingDirectory = tree.workingDirectory := rfl

@[simp] theorem workingDirectory_erase :
    (tree.erase location).workingDirectory = tree.workingDirectory := rfl

@[simp] theorem node?_nil : tree.node? [] = some .directory := rfl

theorem node?_set (hlocation : location ≠ []) :
    (tree.set location node).node? other =
      if other = location then some node else tree.node? other := by
  by_cases hother : other = []
  · subst other
    simp [hlocation.symm]
  · simp [node?, set, hother, lookup_setValue]

theorem node?_erase (hlocation : location ≠ []) :
    (tree.erase location).node? other =
      if other = location then none else tree.node? other := by
  by_cases hother : other = []
  · subst other
    simp [hlocation.symm]
  · simp only [node?, erase, if_neg hother]
    exact lookup_filter_ne location other tree.entries

theorem node?_set_self (hlocation : location ≠ []) :
    (tree.set location node).node? location = some node := by
  rw [node?_set tree node hlocation, if_pos rfl]

theorem node?_set_of_ne (hlocation : location ≠ []) (hother : other ≠ location) :
    (tree.set location node).node? other = tree.node? other := by
  rw [node?_set tree node hlocation, if_neg hother]

end Nodes

/-! ## Directories decide where paths lead -/

structure KeepsDirectories (tree later : FileTree) : Prop where
  workingDirectory : later.workingDirectory = tree.workingDirectory
  directory : ∀ location, tree.node? location = some .directory →
    later.node? location = some .directory

structure Extends (tree later : FileTree) : Prop where
  workingDirectory : later.workingDirectory = tree.workingDirectory
  node : ∀ location node, tree.node? location = some node → later.node? location = some node

/-- The trees differ at most in the file at one location. -/
structure DiffersAt (location : Location) (tree later : FileTree) : Prop where
  workingDirectory : later.workingDirectory = tree.workingDirectory
  node : ∀ other, other ≠ location → later.node? other = tree.node? other
  before : tree.node? location ≠ some .directory
  after : later.node? location ≠ some .directory

theorem KeepsDirectories.trans {first second third : FileTree}
    (hfirst : KeepsDirectories first second) (hsecond : KeepsDirectories second third) :
    KeepsDirectories first third where
  workingDirectory := hsecond.workingDirectory.trans hfirst.workingDirectory
  directory location hdir := hsecond.directory location (hfirst.directory location hdir)

theorem Extends.refl (tree : FileTree) : Extends tree tree := ⟨rfl, fun _ _ h => h⟩

theorem Extends.trans {first second third : FileTree}
    (hfirst : Extends first second) (hsecond : Extends second third) : Extends first third where
  workingDirectory := hsecond.workingDirectory.trans hfirst.workingDirectory
  node location node h := hsecond.node location node (hfirst.node location node h)

theorem Extends.keepsDirectories {tree later : FileTree} (h : Extends tree later) :
    KeepsDirectories tree later :=
  ⟨h.workingDirectory, fun location hdir => h.node location .directory hdir⟩

theorem DiffersAt.symm {location : Location} {tree later : FileTree}
    (h : DiffersAt location tree later) : DiffersAt location later tree where
  workingDirectory := h.workingDirectory.symm
  node other hother := (h.node other hother).symm
  before := h.after
  after := h.before

theorem DiffersAt.trans {location : Location} {first second third : FileTree}
    (hfirst : DiffersAt location first second) (hsecond : DiffersAt location second third) :
    DiffersAt location first third where
  workingDirectory := hsecond.workingDirectory.trans hfirst.workingDirectory
  node other hother := (hsecond.node other hother).trans (hfirst.node other hother)
  before := hfirst.before
  after := hsecond.after

theorem DiffersAt.keepsDirectories {location : Location} {tree later : FileTree}
    (h : DiffersAt location tree later) : KeepsDirectories tree later where
  workingDirectory := h.workingDirectory
  directory other hdir := by
    by_cases hother : other = location
    · subst other
      exact absurd hdir h.before
    · rw [h.node other hother]
      exact hdir

theorem extends_set {tree : FileTree} {location : Location} {node : Node}
    (hlocation : location ≠ []) (hfree : tree.node? location = none) :
    Extends tree (tree.set location node) where
  workingDirectory := rfl
  node other old hold := by
    rw [node?_set_of_ne tree node hlocation]
    · exact hold
    · intro hother
      subst other
      rw [hfree] at hold
      contradiction

theorem differsAt_set {tree : FileTree} {location : Location} {content : Bytes}
    (hlocation : location ≠ []) (hfile : tree.node? location ≠ some .directory) :
    DiffersAt location tree (tree.set location (.file content)) where
  workingDirectory := rfl
  node other hother := node?_set_of_ne tree _ hlocation hother
  before := hfile
  after := by
    rw [node?_set_self tree _ hlocation]
    simp

theorem differsAt_erase {tree : FileTree} {location : Location}
    (hlocation : location ≠ []) (hfile : tree.node? location ≠ some .directory) :
    DiffersAt location tree (tree.erase location) where
  workingDirectory := rfl
  node other hother := by rw [node?_erase tree hlocation, if_neg hother]
  before := hfile
  after := by
    rw [node?_erase tree hlocation]
    simp

theorem enter_of_keepsDirectories {tree later : FileTree} (h : KeepsDirectories tree later)
    {directory next : Location} {name : String}
    (henter : tree.enter directory name = .ok next) :
    later.enter directory name = .ok next := by
  unfold enter at henter ⊢
  by_cases hdot : name = "."
  · simpa [hdot] using henter
  by_cases hup : name = ".."
  · simpa [hup] using henter
  by_cases hlong : nameLimit < name.utf8ByteSize
  · simp [hdot, hup, hlong] at henter
  simp only [hdot, hup, hlong, if_false] at henter ⊢
  cases hnode : tree.node? (directory ++ [name]) with
  | none => simp [hnode] at henter
  | some node =>
      cases node with
      | file content => simp [hnode] at henter
      | directory =>
          simp only [hnode] at henter
          rw [h.directory _ hnode]
          exact henter

theorem follow_of_keepsDirectories {tree later : FileTree} (h : KeepsDirectories tree later)
    {slash : Bool} {directory : Location} {names : List String} {target : Target}
    (hfollow : tree.follow slash directory names = .ok target) :
    later.follow slash directory names = .ok target := by
  induction names generalizing directory with
  | nil => exact hfollow
  | cons name rest ih =>
      cases rest with
      | nil => exact hfollow
      | cons second rest =>
          simp only [follow] at hfollow ⊢
          cases henter : tree.enter directory name with
          | error fault => simp [henter] at hfollow
          | ok next =>
              rw [enter_of_keepsDirectories h henter]
              simp only [henter] at hfollow
              exact ih hfollow

theorem target_of_keepsDirectories {tree later : FileTree} (h : KeepsDirectories tree later)
    {path : String} {target : Target} (htarget : tree.target path = .ok target) :
    later.target path = .ok target := by
  simp only [FileTree.target, h.workingDirectory] at htarget ⊢
  by_cases hzero : path.toList.contains '\x00' = true
  · simp only [if_pos hzero] at htarget
    contradiction
  by_cases hempty : path.toList.isEmpty = true
  · simp only [if_neg hzero, if_pos hempty] at htarget
    contradiction
  by_cases hlong : pathLimit < path.utf8ByteSize
  · simp only [if_neg hzero, if_neg hempty, if_pos hlong] at htarget
    contradiction
  simp only [if_neg hzero, if_neg hempty, if_neg hlong] at htarget ⊢
  exact follow_of_keepsDirectories h htarget

end FileTree
end ZoneDemand
