import ZoneDemand.Proofs.FileTree.Directories

/-!
# Replacing a file, step by step

Making room for a file adds directories and then touches only the file under
construction; completing it touches that file and its destination.  Whatever fails, only
the file under construction has changed, and discarding it leaves none.
-/

namespace ZoneDemand
namespace FileTree

/-- The trees differ at most in the file that a path names. -/
def DiffersAtPath (path : String) (tree later : FileTree) : Prop :=
  later = tree ∨ ∃ location, tree.place? path = some location ∧ DiffersAt location tree later

namespace DiffersAtPath

variable {path : String} {tree later : FileTree}

theorem refl (path : String) (tree : FileTree) : DiffersAtPath path tree tree := .inl rfl

theorem of_differsAt {location : Location} (hplace : tree.place? path = some location)
    (h : DiffersAt location tree later) : DiffersAtPath path tree later :=
  .inr ⟨location, hplace, h⟩

theorem place?_eq (h : DiffersAtPath path tree later) (other : String) :
    later.place? other = tree.place? other := by
  rcases h with rfl | ⟨location, -, h⟩
  · rfl
  · exact h.place?_eq other

theorem trans {last : FileTree} (hfirst : DiffersAtPath path tree later)
    (hsecond : DiffersAtPath path later last) : DiffersAtPath path tree last := by
  rcases hfirst with rfl | ⟨location, hplace, hfirst⟩
  · exact hsecond
  rcases hsecond with rfl | ⟨other, hother, hsecond⟩
  · exact of_differsAt hplace hfirst
  · rw [hfirst.place?_eq, hplace, Option.some.injEq] at hother
    subst other
    exact of_differsAt hplace (hfirst.trans hsecond)

theorem keepsDirectories (h : DiffersAtPath path tree later) : KeepsDirectories tree later := by
  rcases h with rfl | ⟨location, -, h⟩
  · exact (Extends.refl later).keepsDirectories
  · exact h.keepsDirectories

theorem node?_eq (h : DiffersAtPath path tree later) {other : Location}
    (hother : tree.place? path ≠ some other) : later.node? other = tree.node? other := by
  rcases h with rfl | ⟨location, hplace, h⟩
  · rfl
  · apply h.node
    rintro rfl
    exact hother hplace

theorem exists?_eq (h : DiffersAtPath path tree later) {other : String}
    (hother : ∀ location, tree.place? path = some location →
      tree.place? other ≠ some location) :
    later.exists? other = tree.exists? other := by
  rcases h with rfl | ⟨location, hplace, h⟩
  · rfl
  · exact h.exists?_eq (hother location hplace)

end DiffersAtPath

theorem Extends.exists? {tree later : FileTree} (h : Extends tree later) {path : String}
    (hexists : tree.exists? path = true) : later.exists? path = true := by
  rw [exists?_eq_true_iff] at hexists ⊢
  rcases hexists with hdir | ⟨content, hread⟩
  · exact .inl (stat_directory_of_keepsDirectories h.keepsDirectories hdir)
  · exact .inr ⟨content, h.read hread⟩

/-! ## Discarding -/

theorem discard_differsAtPath (tree : FileTree) (path : String) :
    DiffersAtPath path tree (tree.discard path) := by
  unfold discard
  split
  · rename_i removed hremoved
    obtain ⟨location, content, hplace, hnode, rfl⟩ := remove_eq_ok_iff.mp hremoved
    exact .of_differsAt hplace (differsAt_erase (ne_nil_of_place? hplace) (by simp [hnode]))
  · exact .refl path tree

theorem read_discard (tree : FileTree) (path : String) (content : Bytes) :
    (tree.discard path).read path ≠ .ok content := by
  intro hread
  obtain ⟨location, hplace, hnode⟩ := read_eq_ok_iff.mp hread
  rw [(discard_differsAtPath tree path).place?_eq] at hplace
  unfold discard at hnode
  split at hnode
  · rename_i removed hremoved
    obtain ⟨other, _, hother, -, rfl⟩ := remove_eq_ok_iff.mp hremoved
    rw [hplace, Option.some.injEq] at hother
    subst other
    rw [node?_erase _ (ne_nil_of_place? hplace), if_pos rfl] at hnode
    contradiction
  · rename_i fault hremoved
    rw [remove_eq_ok_iff.mpr ⟨location, content, hplace, hnode, rfl⟩] at hremoved
    contradiction

/-! ## Making room -/

theorem write_differsAtPath {tree written : FileTree} {path : String} {content : Bytes}
    (hwritten : tree.write path content = .ok written) : DiffersAtPath path tree written := by
  obtain ⟨location, hplace, hfile, rfl⟩ := write_eq_ok_iff.mp hwritten
  exact .of_differsAt hplace (differsAt_set (ne_nil_of_place? hplace) hfile)

theorem prepare_differsAtPath (tree : FileTree) (path : String) :
    DiffersAtPath path (tree.makeAncestors path).1 (tree.prepare path).1 := by
  unfold prepare
  split
  · rename_i made e hmade
    rw [hmade]
    exact .refl path made
  · rename_i made hmade
    rw [hmade]
    split
    · rename_i created hcreated
      exact write_differsAtPath hcreated
    · exact .refl path made

/-- What is read while a prepared file is written: the same all along, or the file itself. -/
theorem read_holding (tree : FileTree) (path other : String) :
    (∀ octets data, (tree.holding path octets).read other = .ok data ↔
      tree.read other = .ok data) ∨
    ∃ place, tree.place? path = some place ∧ tree.place? other = some place ∧
      ∀ octets, (tree.holding path octets).read other = .ok octets := by
  cases htarget : tree.fileTarget path with
  | error fault =>
      left
      intro octets data
      have hsame : tree.holding path octets = tree := by simp [holding, write, htarget]
      rw [hsame]
  | ok place =>
      obtain ⟨hplace, hfile⟩ := fileTarget_eq_ok_iff.mp htarget
      have hne := ne_nil_of_place? hplace
      have hheld : ∀ octets, tree.holding path octets = tree.set place (.file octets) := by
        intro octets
        simp [holding, write, htarget]
      have hdiffers : ∀ octets, DiffersAt place tree (tree.holding path octets) := by
        intro octets
        rw [hheld]
        exact differsAt_set hne hfile
      by_cases hother : tree.place? other = some place
      · right
        refine ⟨place, hplace, hother, fun octets => read_eq_ok_iff.mpr ⟨place, ?_, ?_⟩⟩
        · rw [(hdiffers octets).place?_eq]
          exact hother
        · rw [hheld, node?_set_self _ _ hne]
      · left
        intro octets data
        exact (hdiffers octets).read_iff hother

/-! ## Completing -/

/-- What completing a file can have done. -/
inductive Completion (tree : FileTree) (path : String) (content : Bytes) (destination : String) :
    FileTree × Except PathFault Unit → Prop where
  | failed {later : FileTree} {e : PathFault} (hlater : DiffersAtPath path tree later) :
      Completion tree path content destination (later, .error e)
  | moved {later : FileTree} {location place : Location}
      (hlocation : tree.place? path = some location)
      (hplace : tree.place? destination = some place)
      (hdirectories : KeepsDirectories tree later)
      (hnode : later.node? place = some (.file content))
      (hgone : location ≠ place → later.node? location = none)
      (hothers : ∀ other, other ≠ location → other ≠ place →
        later.node? other = tree.node? other) :
      Completion tree path content destination (later, .ok ())

theorem completion (tree : FileTree) (path : String) (content : Bytes) (destination : String) :
    Completion tree path content destination (tree.complete path content destination) := by
  unfold complete
  split
  · exact .failed (.refl path tree)
  · rename_i written hwritten
    have hdiffers := write_differsAtPath hwritten
    obtain ⟨location, hlocation, hfile, rfl⟩ := write_eq_ok_iff.mp hwritten
    have hne := ne_nil_of_place? hlocation
    split
    · rename_i moved hmoved
      obtain ⟨source, found, place, hsource, hfound, hplace, hdest, rfl⟩ :=
        rename_eq_ok_iff.mp hmoved
      rw [hdiffers.place?_eq] at hsource hplace
      rw [hlocation, Option.some.injEq] at hsource
      subst source
      rw [node?_set_self tree _ hne, Option.some.injEq, Node.file.injEq] at hfound
      subst found
      have hneplace := ne_nil_of_place? hplace
      by_cases hsame : location = place
      · subst place
        rw [if_pos rfl]
        refine .moved hlocation hplace hdiffers.keepsDirectories (node?_set_self tree _ hne)
          (fun h => absurd rfl h) ?_
        intro other hother _
        exact node?_set_of_ne tree _ hne hother
      · rw [if_neg hsame]
        have herase : DiffersAt location (tree.set location (.file content))
            ((tree.set location (.file content)).erase location) :=
          differsAt_erase hne (by rw [node?_set_self tree _ hne]; simp)
        have hset : DiffersAt place ((tree.set location (.file content)).erase location)
            (((tree.set location (.file content)).erase location).set place (.file content)) :=
          differsAt_set hneplace (by rw [herase.node place (Ne.symm hsame)]; exact hdest)
        refine .moved hlocation hplace ?_ (node?_set_self _ _ hneplace) ?_ ?_
        · exact (hdiffers.keepsDirectories.trans herase.keepsDirectories).trans
            hset.keepsDirectories
        · intro _
          rw [hset.node location hsame, node?_erase _ hne, if_pos rfl]
        · intro other hother hplace
          rw [hset.node other hplace, herase.node other hother,
            node?_set_of_ne tree _ hne hother]
    · exact .failed hdiffers

end FileTree
end ZoneDemand
