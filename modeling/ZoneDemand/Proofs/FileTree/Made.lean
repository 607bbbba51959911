import ZoneDemand.Proofs.FileTree.Contents

/-!
# The directories that are made

Making a directory and the missing ones above it adds entries only at names that the path
passes on its way.
-/

namespace ZoneDemand
namespace Path

/-- The location of a name on the way along some names, other than a step back. -/
def Passes (start : Location) (names : List String) (location : Location) : Prop :=
  ∃ before name after, names = before ++ name :: after ∧ name ≠ ".." ∧
    location = (before ++ [name]).foldl go start

theorem Passes.append {start location : Location} {names : List String}
    (h : Passes start names location) (more : List String) :
    Passes start (names ++ more) location := by
  obtain ⟨before, name, after, rfl, hname, hlocation⟩ := h
  exact ⟨before, name, after ++ more, by simp, hname, hlocation⟩

theorem Passes.of_append_up {start location : Location} {names : List String}
    (h : Passes start (names ++ [".."]) location) : Passes start names location := by
  obtain ⟨before, name, after, heq, hname, hlocation⟩ := h
  rcases List.eq_nil_or_concat after with rfl | ⟨rest, last, rfl⟩
  · obtain ⟨-, hlast⟩ := List.append_inj' heq rfl
    exact absurd (List.cons.inj hlast).1.symm hname
  · rw [List.concat_eq_append, ← List.cons_append, ← List.append_assoc] at heq
    obtain ⟨hnames, -⟩ := List.append_inj' heq rfl
    exact ⟨before, name, rest, hnames, hname, hlocation⟩

end Path

namespace FileTree

/-! ## What has been made -/

/-- The entry is as it was, or a directory that is new at one of the given locations. -/
def KeptOrMade (made : Location → Prop) (tree later : FileTree) (other : Location) : Prop :=
  later.node? other = tree.node? other ∨
    tree.node? other = none ∧ later.node? other = some .directory ∧ made other

namespace KeptOrMade

variable {made wider : Location → Prop} {tree between later : FileTree} {other : Location}

theorem refl (made : Location → Prop) (tree : FileTree) (other : Location) :
    KeptOrMade made tree tree other := .inl rfl

theorem mono (h : KeptOrMade made tree later other) (hwider : made other → wider other) :
    KeptOrMade wider tree later other :=
  h.imp id fun ⟨hnone, hdirectory, hmade⟩ => ⟨hnone, hdirectory, hwider hmade⟩

theorem trans (hfirst : KeptOrMade made tree between other)
    (hsecond : KeptOrMade made between later other) : KeptOrMade made tree later other := by
  rcases hfirst with hsame | ⟨hnone, hdirectory, hmade⟩
  · unfold KeptOrMade
    rw [← hsame]
    exact hsecond
  · rcases hsecond with hsame | ⟨habsent, -, -⟩
    · exact .inr ⟨hnone, hsame.trans hdirectory, hmade⟩
    · rw [hdirectory] at habsent
      contradiction

theorem of_node?_eq (h : KeptOrMade made tree between other)
    (hsame : later.node? other = between.node? other) : KeptOrMade made tree later other := by
  unfold KeptOrMade
  rw [hsame]
  exact h

end KeptOrMade

variable {tree later : FileTree}

theorem keptOrMade_makeDirectory {path : String} (hmade : tree.makeDirectory path = .ok later)
    (other : Location) :
    KeptOrMade (Path.Passes (tree.base path) (Path.steps path)) tree later other := by
  obtain ⟨parent, name, slash, htarget, hfree, rfl⟩ := makeDirectory_eq_ok_iff.mp hmade
  by_cases hother : other = parent ++ [name]
  · subst hother
    obtain ⟨-, before, hsteps, hwalk⟩ := walk_of_target htarget
    obtain ⟨hdot, hup⟩ := follow_entry (target_eq_ok_iff.mp htarget).2
    refine .inr ⟨hfree, node?_set_self tree _ (by simp), before, name, [], hsteps, hup, ?_⟩
    rw [List.foldl_append, ← walk_eq hwalk, List.foldl_cons, List.foldl_nil,
      Path.go_of_ordinary hdot hup]
  · exact .inl (node?_set_of_ne tree _ (by simp) hother)

theorem base_of_keepsDirectories (h : KeepsDirectories tree later) (path : String) :
    later.base path = tree.base path := by
  rw [base, base, h.workingDirectory]

theorem keptOrMade_makeDirectoriesUpTo (depth : Nat) (tree : FileTree) (path : String)
    (other : Location) :
    KeptOrMade (Path.Passes (tree.base path) (Path.steps path)) tree
      (tree.makeDirectoriesUpTo depth path).1 other := by
  induction depth generalizing path with
  | zero => exact .refl _ tree other
  | succ depth ih =>
      by_cases hempty : path = ""
      · rw [makeDirectoriesUpTo_of_directory depth (.inl hempty)]
        exact .refl _ tree other
      -- What the parent passes, the path passes as well.
      have habove : ∀ {parent above outcome}, Path.parent? path = some parent →
          tree.makeDirectoriesUpTo depth parent = (above, outcome) →
          KeptOrMade (Path.Passes (tree.base path) (Path.steps path)) tree above other := by
        intro parent above outcome hparent hresult
        obtain ⟨-, last, hsteps, -⟩ := Path.steps_of_parent? hparent
        have hmade := ih parent
        rw [hresult, base_parent? hparent] at hmade
        rw [hsteps]
        exact hmade.mono fun hpasses => hpasses.append last
      generalize hresult : tree.makeDirectoriesUpTo (depth + 1) path = result
      cases hresult ▸ climb tree hempty depth with
      | made hmade => exact keptOrMade_makeDirectory hmade other
      | there _ => exact .refl _ tree other
      | refused _ _ _ => exact .refl _ tree other
      | top _ _ => exact .refl _ tree other
      | aboveFailed hparent hmade => exact habove hparent hmade
      | @aboveMade parent above made hparent hbefore hmade =>
          have hextends : Extends tree above := by
            simpa [hbefore] using extends_makeDirectoriesUpTo depth tree parent
          have hlast := keptOrMade_makeDirectory hmade other
          rw [base_of_keepsDirectories hextends.keepsDirectories] at hlast
          exact (habove hparent hbefore).trans hlast
      | aboveThere hparent hmade _ => exact habove hparent hmade
      | aboveRefused hparent hmade _ _ => exact habove hparent hmade

theorem keptOrMade_makeAncestors (tree : FileTree) (path : String) (other : Location) :
    KeptOrMade (Path.Passes (tree.base path) (Path.steps path).dropLast) tree
      (tree.makeAncestors path).1 other := by
  cases hancestor : Path.ancestor? path with
  | none =>
      rw [makeAncestors_of_none hancestor]
      exact .refl _ tree other
  | some ancestor =>
      obtain ⟨hparent, hne⟩ := parent?_of_ancestor? hancestor
      obtain ⟨-, last, hsteps, -, hlast⟩ := Path.steps_of_parent? hparent
      obtain ⟨name, rfl⟩ := hlast hne
      rw [makeAncestors_of_some hancestor, hsteps, List.dropLast_concat, ← base_parent? hparent]
      exact keptOrMade_makeDirectoriesUpTo _ tree ancestor other

end FileTree
end ZoneDemand
