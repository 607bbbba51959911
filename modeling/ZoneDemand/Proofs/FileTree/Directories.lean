import ZoneDemand.Proofs.FileTree.Walk

/-!
# Making directories

Making a directory and the missing ones above it only adds entries.  It succeeds exactly
if the directory is there afterwards, does nothing if it is there already, and doing it a
second time changes nothing more, whether it has succeeded or failed.
-/

namespace ZoneDemand
namespace FileTree

theorem makeDirectory_eq_ok_iff {tree made : FileTree} {path : String} :
    tree.makeDirectory path = .ok made ↔
      ∃ parent name slash, tree.target path = .ok (.entry parent name slash) ∧
        tree.node? (parent ++ [name]) = none ∧ made = tree.set (parent ++ [name]) .directory := by
  cases htarget : tree.target path with
  | error fault => simp [makeDirectory, htarget]
  | ok target =>
      cases target with
      | directory location => simp [makeDirectory, htarget]
      | entry parent name slash =>
          cases hnode : tree.node? (parent ++ [name]) with
          | none => simp [makeDirectory, htarget, hnode, eq_comm]
          | some node => simp [makeDirectory, htarget, hnode]

theorem makeDirectory_of_directory {tree : FileTree} {path : String}
    (hstat : tree.stat path = .ok .directory) :
    tree.makeDirectory path = .error .exists := by
  rcases stat_eq_directory_iff.mp hstat with
    ⟨location, htarget⟩ | ⟨parent, name, slash, htarget, hnode⟩
  · simp [makeDirectory, htarget]
  · simp [makeDirectory, htarget, hnode]

theorem extends_makeDirectory {tree made : FileTree} {path : String}
    (hmade : tree.makeDirectory path = .ok made) :
    Extends tree made ∧ made.stat path = .ok .directory := by
  obtain ⟨parent, name, slash, htarget, hfree, rfl⟩ := makeDirectory_eq_ok_iff.mp hmade
  have hextends : Extends tree (tree.set (parent ++ [name]) .directory) :=
    extends_set (by simp) hfree
  refine ⟨hextends, stat_eq_directory_iff.mpr (.inr ⟨parent, name, slash, ?_, ?_⟩)⟩
  · exact target_of_keepsDirectories hextends.keepsDirectories htarget
  · exact node?_set_self tree _ (by simp)

theorem makeDirectoriesUpTo_of_directory {tree : FileTree} {path : String} (depth : Nat)
    (hstat : path = "" ∨ tree.stat path = .ok .directory) :
    tree.makeDirectoriesUpTo (depth + 1) path = (tree, .ok ()) := by
  unfold makeDirectoriesUpTo
  by_cases hempty : path = ""
  · rw [if_pos hempty]
  · have hdir : tree.stat path = .ok .directory := hstat.resolve_left hempty
    rw [if_neg hempty, makeDirectory_of_directory hdir]
    simp [isDirectory_eq_true_iff.mpr hdir]

/-- What the walk upwards has done at one path, which is not empty. -/
inductive Climb (tree : FileTree) (path : String) (depth : Nat) :
    FileTree × Except FileFault Unit → Prop where
  | made {made : FileTree} (hmade : tree.makeDirectory path = .ok made) :
      Climb tree path depth (made, .ok ())
  | there (hstat : tree.stat path = .ok .directory) : Climb tree path depth (tree, .ok ())
  | refused {fault : FileFault} (hmade : tree.makeDirectory path = .error fault)
      (hfault : fault ≠ .notFound) (hstat : tree.stat path ≠ .ok .directory) :
      Climb tree path depth (tree, .error fault)
  | top {fault : FileFault} (hmade : tree.makeDirectory path = .error .notFound)
      (hparent : Path.parent? path = none) : Climb tree path depth (tree, .error fault)
  | aboveFailed {parent : String} {above : FileTree} {fault : FileFault}
      (hparent : Path.parent? path = some parent)
      (habove : tree.makeDirectoriesUpTo depth parent = (above, .error fault)) :
      Climb tree path depth (above, .error fault)
  | aboveMade {parent : String} {above made : FileTree}
      (hparent : Path.parent? path = some parent)
      (habove : tree.makeDirectoriesUpTo depth parent = (above, .ok ()))
      (hmade : above.makeDirectory path = .ok made) : Climb tree path depth (made, .ok ())
  | aboveThere {parent : String} {above : FileTree}
      (hparent : Path.parent? path = some parent)
      (habove : tree.makeDirectoriesUpTo depth parent = (above, .ok ()))
      (hstat : above.stat path = .ok .directory) : Climb tree path depth (above, .ok ())
  | aboveRefused {parent : String} {above : FileTree} {fault : FileFault}
      (hparent : Path.parent? path = some parent)
      (habove : tree.makeDirectoriesUpTo depth parent = (above, .ok ()))
      (hmade : above.makeDirectory path = .error fault)
      (hstat : above.stat path ≠ .ok .directory) : Climb tree path depth (above, .error fault)

theorem climb (tree : FileTree) {path : String} (hpath : path ≠ "") (depth : Nat) :
    Climb tree path depth (tree.makeDirectoriesUpTo (depth + 1) path) := by
  unfold makeDirectoriesUpTo
  rw [if_neg hpath]
  split
  · rename_i made hmade
    exact .made hmade
  · rename_i hmade
    split
    · rename_i hparent
      exact .top hmade hparent
    · rename_i parent hparent
      split
      · rename_i above fault habove
        exact .aboveFailed hparent habove
      · rename_i above habove
        split
        · rename_i made hmade
          exact .aboveMade hparent habove hmade
        · rename_i fault hmade
          by_cases hdir : above.isDirectory path = true
          · rw [if_pos hdir]
            exact .aboveThere hparent habove (isDirectory_eq_true_iff.mp hdir)
          · rw [if_neg hdir]
            exact .aboveRefused hparent habove hmade (isDirectory_eq_true_iff.not.mp hdir)
  · rename_i fault hfault hmade
    by_cases hdir : tree.isDirectory path = true
    · rw [if_pos hdir]
      exact .there (isDirectory_eq_true_iff.mp hdir)
    · rw [if_neg hdir]
      exact .refused hmade (by rintro rfl; exact hfault rfl) (isDirectory_eq_true_iff.not.mp hdir)

theorem extends_makeDirectoriesUpTo (depth : Nat) (tree : FileTree) (path : String) :
    Extends tree (tree.makeDirectoriesUpTo depth path).1 := by
  induction depth generalizing path with
  | zero => exact .refl tree
  | succ depth ih =>
      by_cases hempty : path = ""
      · rw [makeDirectoriesUpTo_of_directory depth (.inl hempty)]
        exact .refl tree
      generalize hresult : tree.makeDirectoriesUpTo (depth + 1) path = result
      cases hresult ▸ climb tree hempty depth with
      | made hmade => exact (extends_makeDirectory hmade).1
      | there _ => exact .refl tree
      | refused _ _ _ => exact .refl tree
      | top _ _ => exact .refl tree
      | @aboveFailed parent above _ _ habove => simpa [habove] using ih parent
      | @aboveMade parent above _ _ habove hmade =>
          have hbefore : Extends tree above := by simpa [habove] using ih parent
          exact hbefore.trans (extends_makeDirectory hmade).1
      | @aboveThere parent above _ habove _ => simpa [habove] using ih parent
      | @aboveRefused parent above _ _ habove _ _ => simpa [habove] using ih parent

/-- Making directories succeeds exactly if the directory is there afterwards. -/
theorem makeDirectoriesUpTo_eq_ok_iff (depth : Nat) (tree : FileTree) (path : String)
    (hdepth : path.length < depth) :
    (tree.makeDirectoriesUpTo depth path).2 = .ok () ↔
      path = "" ∨ (tree.makeDirectoriesUpTo depth path).1.stat path = .ok .directory := by
  induction depth generalizing path with
  | zero => omega
  | succ depth ih =>
      by_cases hempty : path = ""
      · rw [makeDirectoriesUpTo_of_directory depth (.inl hempty)]
        simp [hempty]
      simp only [hempty, false_or]
      generalize hresult : tree.makeDirectoriesUpTo (depth + 1) path = result
      cases hresult ▸ climb tree hempty depth with
      | made hmade => simp [(extends_makeDirectory hmade).2]
      | there hstat => simp [hstat]
      | refused _ _ hstat => simp [hstat]
      | top hmade _ =>
          simp only [reduceCtorEq, false_iff]
          intro hstat
          rw [makeDirectory_of_directory hstat] at hmade
          simp at hmade
      | @aboveFailed parent _ _ hparent habove =>
          have hshorter := Path.parent?_length_lt hparent
          have hfailed := (ih parent (by omega)).not
          simp only [habove, reduceCtorEq, not_false_eq_true, true_iff, not_or] at hfailed
          simp only [reduceCtorEq, false_iff]
          intro hstat
          exact hfailed.2 (stat_parent?_of_directory hparent hfailed.1 hstat)
      | aboveMade _ _ hmade => simp [(extends_makeDirectory hmade).2]
      | aboveThere _ _ hstat => simp [hstat]
      | aboveRefused _ _ _ hstat => simp [hstat]

theorem makeDirectoriesUpTo_of_refused {tree : FileTree} {path : String} {fault : FileFault}
    {depth : Nat} (hpath : path ≠ "") (hmade : tree.makeDirectory path = .error fault)
    (habove : ∀ parent, Path.parent? path = some parent →
      (tree.makeDirectoriesUpTo depth parent).1 = tree) :
    (tree.makeDirectoriesUpTo (depth + 1) path).1 = tree := by
  cases hclimb : tree.makeDirectoriesUpTo (depth + 1) path with
  | mk later outcome =>
      have hunchanged : ∀ {parent above outcome}, Path.parent? path = some parent →
          tree.makeDirectoriesUpTo depth parent = (above, outcome) → above = tree := by
        intro parent above outcome hparent hresult
        rw [← habove parent hparent, hresult]
      cases hclimb ▸ climb tree hpath depth with
      | made hagain =>
          rw [hmade] at hagain
          contradiction
      | there _ => rfl
      | refused _ _ _ => rfl
      | top _ _ => rfl
      | aboveFailed hparent hresult => exact hunchanged hparent hresult
      | aboveMade hparent hresult hagain =>
          rw [hunchanged hparent hresult, hmade] at hagain
          contradiction
      | aboveThere hparent hresult _ => exact hunchanged hparent hresult
      | aboveRefused hparent hresult _ _ => exact hunchanged hparent hresult

theorem makeDirectoriesUpTo_idempotent (depth : Nat) (tree : FileTree) (path : String)
    (hdepth : path.length < depth) :
    ((tree.makeDirectoriesUpTo depth path).1.makeDirectoriesUpTo depth path).1 =
      (tree.makeDirectoriesUpTo depth path).1 := by
  induction depth generalizing path with
  | zero => omega
  | succ depth ih =>
      have hok := makeDirectoriesUpTo_eq_ok_iff (depth + 1) tree path hdepth
      by_cases hthere : path = "" ∨
          (tree.makeDirectoriesUpTo (depth + 1) path).1.stat path = .ok .directory
      · rw [makeDirectoriesUpTo_of_directory depth hthere]
      have hempty : path ≠ "" := fun h => hthere (.inl h)
      have hfailed := hok.not.mpr hthere
      have hshorter : ∀ {parent}, Path.parent? path = some parent → parent.length < depth := by
        intro parent hparent
        have hlt := Path.parent?_length_lt hparent
        omega
      generalize hresult : tree.makeDirectoriesUpTo (depth + 1) path = result at hfailed ⊢
      cases hresult ▸ climb tree hempty depth with
      | made _ => simp at hfailed
      | there _ => simp at hfailed
      | aboveMade _ _ _ => simp at hfailed
      | aboveThere _ _ _ => simp at hfailed
      | refused hmade _ _ =>
          simp [hresult]
      | top hmade hparent =>
          simp [hresult]
      | @aboveFailed parent above fault hparent habove =>
          have hdir := (makeDirectoriesUpTo_eq_ok_iff depth tree parent (hshorter hparent)).not
          have hagain := ih parent (hshorter hparent)
          simp only [habove, reduceCtorEq, not_false_eq_true, true_iff, not_or] at hdir hagain
          cases hmade : above.makeDirectory path with
          | ok made =>
              obtain ⟨location, name, slash, htarget, -⟩ := makeDirectory_eq_ok_iff.mp hmade
              exact absurd (stat_parent?_of_target hparent hdir.1 htarget) hdir.2
          | error _ =>
              apply makeDirectoriesUpTo_of_refused hempty hmade
              intro other hother
              rw [hparent, Option.some.injEq] at hother
              exact hother ▸ hagain
      | @aboveRefused parent above fault hparent habove hmade _ =>
          have hdir := (makeDirectoriesUpTo_eq_ok_iff depth tree parent (hshorter hparent)).mp
            (by rw [habove])
          rw [habove] at hdir
          obtain ⟨less, rfl⟩ := Nat.exists_eq_succ_of_ne_zero
            (Nat.ne_zero_of_lt (hshorter hparent))
          apply makeDirectoriesUpTo_of_refused hempty hmade
          intro other hother
          rw [hparent, Option.some.injEq] at hother
          rw [← hother, makeDirectoriesUpTo_of_directory less hdir]

/-! ## The directories above a path -/

/-- The directory that has to exist before the path can be created does exist. -/
def HasAncestors (tree : FileTree) (path : String) : Prop :=
  ∀ ancestor, Path.ancestor? path = some ancestor → tree.stat ancestor = .ok .directory

theorem parent?_of_ancestor? {path ancestor : String}
    (h : Path.ancestor? path = some ancestor) :
    Path.parent? path = some ancestor ∧ ancestor ≠ "" := by
  simpa [Path.ancestor?, Option.filter_eq_some_iff] using h

theorem hasAncestors_of_place? {tree : FileTree} {path : String} {location : Location}
    (hplace : tree.place? path = some location) : HasAncestors tree path := by
  intro ancestor hancestor
  obtain ⟨hparent, hne⟩ := parent?_of_ancestor? hancestor
  obtain ⟨parent, name, htarget, -⟩ := place?_eq_some_iff.mp hplace
  exact stat_parent?_of_target hparent hne htarget

theorem HasAncestors.of_keepsDirectories {tree later : FileTree}
    (h : KeepsDirectories tree later) {path : String} (hancestors : HasAncestors tree path) :
    HasAncestors later path :=
  fun ancestor hancestor => stat_directory_of_keepsDirectories h (hancestors ancestor hancestor)

theorem makeAncestors_of_none {path : String} (hancestor : Path.ancestor? path = none)
    (tree : FileTree) : tree.makeAncestors path = (tree, .ok ()) := by
  unfold makeAncestors
  rw [hancestor]

theorem makeAncestors_of_some {path ancestor : String}
    (hancestor : Path.ancestor? path = some ancestor) (tree : FileTree) :
    tree.makeAncestors path =
      ((tree.makeDirectoriesUpTo (ancestor.length + 1) ancestor).1,
        (tree.makeDirectoriesUpTo (ancestor.length + 1) ancestor).2.mapError
          fun fault => ⟨ancestor, fault⟩) := by
  unfold makeAncestors
  rw [hancestor, ← makeDirectories]
  simp only
  split <;> rename_i hmade <;> rw [hmade] <;> rfl

theorem extends_makeAncestors (tree : FileTree) (path : String) :
    Extends tree (tree.makeAncestors path).1 := by
  cases hancestor : Path.ancestor? path with
  | none =>
      rw [makeAncestors_of_none hancestor]
      exact .refl tree
  | some ancestor =>
      rw [makeAncestors_of_some hancestor]
      exact extends_makeDirectoriesUpTo (ancestor.length + 1) tree ancestor

theorem makeAncestors_of_hasAncestors {tree : FileTree} {path : String}
    (hancestors : HasAncestors tree path) : tree.makeAncestors path = (tree, .ok ()) := by
  cases hancestor : Path.ancestor? path with
  | none => exact makeAncestors_of_none hancestor tree
  | some ancestor =>
      rw [makeAncestors_of_some hancestor,
        makeDirectoriesUpTo_of_directory ancestor.length (.inr (hancestors ancestor hancestor))]
      rfl

theorem makeAncestors_idempotent (tree : FileTree) (path : String) :
    ((tree.makeAncestors path).1.makeAncestors path).1 = (tree.makeAncestors path).1 := by
  cases hancestor : Path.ancestor? path with
  | none => simp [makeAncestors_of_none hancestor]
  | some ancestor =>
      simp only [makeAncestors_of_some hancestor]
      exact makeDirectoriesUpTo_idempotent (ancestor.length + 1) tree ancestor (by omega)

end FileTree
end ZoneDemand
