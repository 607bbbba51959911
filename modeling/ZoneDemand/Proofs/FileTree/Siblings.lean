import ZoneDemand.Proofs.FileTree.Made

/-!
# A path and its sibling

The directories above the sibling of a path are names that the path itself passes before its
last one, and they are there if the path leads anywhere.  This also holds of a path without a
last name, whose sibling is a name in the directory to which it leads.
-/

namespace ZoneDemand
namespace Path

/-- A path without a last name is empty or ends in a step back. -/
theorem steps_of_fileName?_eq_none {path : String} (hname : fileName? path = none) :
    steps path = [] ∨ ∃ before, steps path = before ++ [".."] := by
  unfold fileName? at hname
  simp only at hname
  split at hname
  · rename_i hdrop
    obtain ⟨idle, hsegs, hidle⟩ := dropIdle_eq (segments path.toList).1
      (segments path.toList).2.reverse
    rw [hdrop, List.append_nil] at hsegs
    left
    rw [steps]
    apply moves_idle
    intro s hs
    exact hidle s (by rw [← hsegs]; exact List.mem_reverse.mpr hs)
  · rename_i segment before hdrop
    obtain ⟨gap, idle, hsegs, hgap, hidle⟩ := segments_eq_of_dropIdle hdrop
    have hsteps : steps path = moves (dropIdle (segments path.toList).1 before).reverse ++
        moves [segment] := by
      rw [steps, hsegs, ← List.singleton_append]
      simp only [moves_append, hgap, hidle, List.append_nil]
    split at hname
    · rename_i hspecial
      rcases hspecial with rfl | rfl
      · -- A dot is kept only as the first segment.
        have hbefore : before = [] := by
          by_contra hbefore
          exact (dropIdle_head hdrop).2 ⟨rfl, .inr hbefore⟩
        left
        rw [hsteps, hbefore]
        rfl
      · exact .inr ⟨_, hsteps⟩
    · contradiction

theorem sibling_of_fileName?_eq_none {path : String} (hname : fileName? path = none)
    (suffix : String) : sibling path suffix = append path suffix := by
  simp [sibling, withFileName, hname]

/-- Appending a name and taking it off again leaves a beginning of the text. -/
theorem parent?_append_isPrefix {base name above : String} (hname : Ordinary name)
    (habove : parent? (append base name) = some above) : above.toList <+: base.toList := by
  obtain ⟨before, hsegments, -, rest, hrest⟩ := segments_append_name base hname.toBare
  obtain ⟨idle, hidle, -⟩ := dropIdle_eq (isAbsolute base) before.reverse
  simp only [parent?, hsegments, List.reverse_append, List.reverse_singleton,
    List.singleton_append, dropIdle, hname.toList_ne_nil, hname.toList_ne_dot, false_or,
    false_and, if_false, Option.some.injEq] at habove
  have hbefore : before = (dropIdle (isAbsolute base) before.reverse).reverse ++ idle.reverse := by
    rw [← List.reverse_append, ← hidle, List.reverse_reverse]
  have hbase : base = render (isAbsolute base)
      ((dropIdle (isAbsolute base) before.reverse).reverse ++ (idle.reverse ++ rest)) := by
    rw [← List.append_assoc, ← hbefore, hrest, isAbsolute, render_segments, String.ofList_toList]
  have htext := congrArg String.toList hbase
  rw [← habove]
  simp only [render, String.toList_ofList] at htext ⊢
  rw [htext]
  exact (List.prefix_append_right_inj _).mpr (join_isPrefix_append _ _)

end Path

namespace FileTree

variable {tree : FileTree} {path suffix : String}

theorem exists_fileName?_of_place? {location : Location}
    (hplace : tree.place? path = some location) : ∃ name, Path.fileName? path = some name := by
  obtain ⟨parent, name, htarget, -⟩ := place?_eq_some_iff.mp hplace
  obtain ⟨-, before, hsteps, -⟩ := walk_of_target htarget
  obtain ⟨-, hup⟩ := follow_entry (target_eq_ok_iff.mp htarget).2
  apply Option.ne_none_iff_exists'.mp
  intro hnone
  rcases Path.steps_of_fileName?_eq_none hnone with hempty | ⟨above, habove⟩
  · simp [hempty] at hsteps
  · rw [hsteps] at habove
    obtain ⟨-, hlast⟩ := List.append_inj' habove rfl
    exact hup (List.cons.inj hlast).1

/-- Where there is a directory, the directory above a name in it is there. -/
theorem hasAncestors_append {base name : String} (hname : Path.Ordinary name)
    (hbase : base = "" ∨ tree.stat base = .ok .directory) :
    HasAncestors tree (Path.append base name) := by
  intro ancestor hancestor
  obtain ⟨hparent, hne⟩ := parent?_of_ancestor? hancestor
  have hbeginning := Path.parent?_append_isPrefix hname hparent
  have hdirectory : tree.stat base = .ok .directory := by
    refine hbase.resolve_left ?_
    rintro rfl
    exact hne (by simpa using hbeginning)
  obtain ⟨hsound, location, hwalk⟩ := stat_directory_iff_walk.mp hdirectory
  obtain ⟨habsolute, last, hsteps, -, hlast⟩ := Path.steps_of_parent? hparent
  obtain ⟨final, rfl⟩ := hlast hne
  rw [Path.steps_append_name base hname] at hsteps
  rw [Path.isAbsolute_append_name base hname] at habsolute
  refine stat_directory_iff_walk.mpr ⟨hsound.of_isPrefix hbeginning hne, location, ?_⟩
  rw [FileTree.base, habsolute, ← FileTree.base, ← (List.append_inj' hsteps rfl).1]
  exact hwalk

/-- Where a path leads somewhere, the directories above its sibling are there. -/
theorem hasAncestors_sibling (hsuffix : Path.Ordinary suffix) (hlong : 2 ≤ suffix.toList.length)
    (hexists : tree.exists? path = true) : HasAncestors tree (Path.sibling path suffix) := by
  rw [exists?_eq_true_iff] at hexists
  cases hname : Path.fileName? path with
  | none =>
      rw [Path.sibling_of_fileName?_eq_none hname]
      refine hasAncestors_append hsuffix (.inr (hexists.resolve_right ?_))
      rintro ⟨content, hread⟩
      obtain ⟨location, hplace, -⟩ := read_eq_ok_iff.mp hread
      obtain ⟨name, hsome⟩ := exists_fileName?_of_place? hplace
      rw [hname] at hsome
      contradiction
  | some name =>
      obtain ⟨parent, hparent⟩ := Path.exists_parent? hname
      rw [Path.sibling_eq hname hparent]
      refine hasAncestors_append ((Path.fileName?_ordinary hname).append hsuffix.noSlash hlong) ?_
      by_cases hempty : parent = ""
      · exact .inl hempty
      right
      rcases hexists with hdirectory | ⟨content, hread⟩
      · exact stat_parent?_of_directory hparent hempty hdirectory
      · obtain ⟨location, hplace, -⟩ := read_eq_ok_iff.mp hread
        obtain ⟨above, last, htarget, -⟩ := place?_eq_some_iff.mp hplace
        exact stat_parent?_of_target hparent hempty htarget

/-- A path and its sibling never lead to the same place. -/
theorem place?_ne_of_place?_sibling (hsuffix : Path.Ordinary suffix)
    (hlong : 2 ≤ suffix.toList.length) {location : Location}
    (hsibling : tree.place? (Path.sibling path suffix) = some location) :
    tree.place? path ≠ some location := by
  intro hplace
  obtain ⟨name, hname⟩ := exists_fileName?_of_place? hplace
  exact place?_ne_of_sibling hname hsuffix.noSlash hlong hsibling hplace

/-- What the sibling passes before its last name, the path passes before its own. -/
theorem passes_of_sibling (hsuffix : Path.Ordinary suffix) (hlong : 2 ≤ suffix.toList.length)
    {location : Location}
    (hpasses : Path.Passes (tree.base (Path.sibling path suffix))
      (Path.steps (Path.sibling path suffix)).dropLast location) :
    Path.Passes (tree.base path) (Path.steps path).dropLast location := by
  cases hname : Path.fileName? path with
  | none =>
      rw [Path.sibling_of_fileName?_eq_none hname, Path.steps_append_name path hsuffix,
        List.dropLast_concat, base, Path.isAbsolute_append_name path hsuffix, ← base] at hpasses
      rcases Path.steps_of_fileName?_eq_none hname with hempty | ⟨before, hup⟩
      · rw [hempty] at hpasses ⊢
        exact hpasses
      · rw [hup] at hpasses ⊢
        rw [List.dropLast_concat]
        exact hpasses.of_append_up
  | some name =>
      obtain ⟨before, hsteps, hsibling⟩ := Path.steps_sibling hname hsuffix.noSlash hlong
      rw [hsibling, List.dropLast_concat, base,
        Path.isAbsolute_sibling hname hsuffix.noSlash hlong, ← base] at hpasses
      rw [hsteps, List.dropLast_concat]
      exact hpasses

end FileTree
end ZoneDemand
