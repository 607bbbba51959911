import Mathlib.Data.List.Induction
import ZoneDemand.Proofs.FileTree.Parents
import ZoneDemand.Proofs.FileTree.Places

/-!
# Walking along a path

A path leads to a directory if its steps can be walked from where it starts, and it has a
place only if all its steps but the last can.  Paths with the same steps from the same
start have the same place.
-/

namespace ZoneDemand

/-- A path that the file system accepts, whatever the tree. -/
structure Path.Sound (path : String) : Prop where
  noZero : '\x00' ∉ path.toList
  ne_empty : path ≠ ""
  short : path.utf8ByteSize ≤ FileTree.pathLimit

theorem Path.Sound.of_isPrefix {path start : String} (hpath : Path.Sound path)
    (hbeginning : start.toList <+: path.toList) (hstart : start ≠ "") : Path.Sound start := by
  obtain ⟨rest, hrest⟩ := hbeginning
  have hwhole : path = start ++ String.ofList rest := by
    apply String.toList_injective
    rw [String.toList_append, String.toList_ofList, hrest]
  refine ⟨?_, hstart, ?_⟩
  · intro hzero
    apply hpath.noZero
    rw [← hrest]
    exact List.mem_append_left rest hzero
  · have hshort := hpath.short
    rw [hwhole, String.utf8ByteSize_append] at hshort
    omega

namespace FileTree

def walk (tree : FileTree) : Location → List String → Except FileFault Location
  | directory, [] => .ok directory
  | directory, name :: rest =>
      match tree.enter directory name with
      | .error fault => .error fault
      | .ok next => tree.walk next rest

def base (tree : FileTree) (path : String) : Location :=
  if Path.isAbsolute path then [] else tree.workingDirectory

@[simp] theorem walk_nil (tree : FileTree) (directory : Location) :
    tree.walk directory [] = .ok directory := rfl

theorem walk_append (tree : FileTree) (directory : Location) (before after : List String) :
    tree.walk directory (before ++ after) =
      match tree.walk directory before with
      | .error fault => .error fault
      | .ok next => tree.walk next after := by
  induction before generalizing directory with
  | nil => rfl
  | cons name rest ih =>
      simp only [List.cons_append, walk]
      cases tree.enter directory name with
      | error fault => rfl
      | ok next => exact ih next

theorem walk_singleton (tree : FileTree) (directory : Location) (name : String) :
    tree.walk directory [name] = tree.enter directory name := by
  simp only [walk]
  cases tree.enter directory name <;> rfl

theorem follow_append (tree : FileTree) (slash : Bool) (directory : Location)
    (names : List String) (last : String) :
    tree.follow slash directory (names ++ [last]) =
      match tree.walk directory names with
      | .error fault => .error fault
      | .ok next => tree.follow slash next [last] := by
  induction names generalizing directory with
  | nil => rfl
  | cons name rest ih =>
      obtain ⟨second, others, hrest⟩ :=
        List.exists_cons_of_ne_nil (List.append_ne_nil_of_right_ne_nil rest
          (List.cons_ne_nil last []))
      rw [List.cons_append, hrest, follow, walk, ← hrest]
      · cases tree.enter directory name with
        | error fault => rfl
        | ok next => exact ih next
      · simp

theorem walk_moves (tree : FileTree) (directory : Location) (segs : List Path.Segment) :
    tree.walk directory ((segs.filter (· ≠ [])).map String.ofList) =
      tree.walk directory (Path.moves segs) := by
  induction segs generalizing directory with
  | nil => rfl
  | cons segment others ih =>
      by_cases hempty : segment = []
      · rw [Path.moves_cons_idle (.inl hempty), List.filter_cons_of_neg (by simpa using hempty)]
        exact ih directory
      rw [List.filter_cons_of_pos (by simpa using hempty), List.map_cons]
      by_cases hdot : segment = ['.']
      · have henter : tree.enter directory (String.ofList segment) = .ok directory := by
          rw [hdot]
          rfl
        rw [Path.moves_cons_idle (.inr hdot), walk, henter]
        exact ih directory
      · rw [Path.moves_cons_of_ne hempty hdot, walk, walk]
        cases tree.enter directory (String.ofList segment) with
        | error fault => rfl
        | ok next => exact ih next

theorem target_eq_ok_iff {tree : FileTree} {path : String} {target : Target} :
    tree.target path = .ok target ↔ Path.Sound path ∧
      tree.follow (path.toList.getLast? == some '/') (tree.base path)
        (((Path.segments path.toList).2.filter (· ≠ [])).map String.ofList) = .ok target := by
  unfold FileTree.target
  simp only
  constructor
  · intro h
    by_cases hzero : path.toList.contains '\x00' = true
    · rw [if_pos hzero] at h
      contradiction
    by_cases hempty : path.toList.isEmpty = true
    · rw [if_neg hzero, if_pos hempty] at h
      contradiction
    by_cases hlong : pathLimit < path.utf8ByteSize
    · rw [if_neg hzero, if_neg hempty, if_pos hlong] at h
      contradiction
    rw [if_neg hzero, if_neg hempty, if_neg hlong] at h
    refine ⟨⟨by simpa using hzero, by simpa using hempty, by omega⟩, h⟩
  · rintro ⟨hsound, h⟩
    rw [if_neg (by simpa using hsound.noZero), if_neg (by simpa using hsound.ne_empty),
      if_neg (by have := hsound.short; omega)]
    exact h

theorem walk_of_target {tree : FileTree} {path name : String} {parent : Location}
    {slash : Bool} (htarget : tree.target path = .ok (.entry parent name slash)) :
    Path.Sound path ∧ ∃ before, Path.steps path = before ++ [name] ∧
      tree.walk (tree.base path) before = .ok parent := by
  obtain ⟨hsound, hfollow⟩ := target_eq_ok_iff.mp htarget
  refine ⟨hsound, ?_⟩
  generalize hsegs : (Path.segments path.toList).2 = segs at hfollow
  rw [Path.steps, hsegs]
  clear hsegs htarget
  induction segs using List.reverseRecOn with
  | nil => simp [follow] at hfollow
  | append_singleton init segment ih =>
      by_cases hempty : segment = []
      · rw [List.filter_append, List.filter_cons_of_neg (by simpa using hempty),
          List.filter_nil, List.append_nil] at hfollow
        rw [Path.moves_append, Path.moves_cons_idle (.inl hempty), Path.moves_nil,
          List.append_nil]
        exact ih hfollow
      rw [List.filter_append, List.filter_cons_of_pos (by simpa using hempty), List.filter_nil,
        List.map_append, List.map_singleton, follow_append, walk_moves] at hfollow
      cases hwalk : tree.walk (tree.base path) (Path.moves init) with
      | error fault => simp [hwalk] at hfollow
      | ok next =>
          simp only [hwalk, follow] at hfollow
          by_cases hdot : String.ofList segment = "."
          · simp [hdot] at hfollow
          by_cases hup : String.ofList segment = ".."
          · simp [hup] at hfollow
          by_cases hlong : nameLimit < (String.ofList segment).utf8ByteSize
          · simp [hdot, hup, hlong] at hfollow
          simp only [hdot, hup, hlong, if_false, Except.ok.injEq, Target.entry.injEq] at hfollow
          obtain ⟨rfl, rfl, -⟩ := hfollow
          refine ⟨Path.moves init, ?_, hwalk⟩
          have hsegment : segment ≠ ['.'] := by
            rintro rfl
            exact hdot rfl
          rw [Path.moves_append, Path.moves_cons_of_ne hempty hsegment]
          rfl

theorem walk_of_place? {tree : FileTree} {path : String} {location : Location}
    (hplace : tree.place? path = some location) :
    Path.Sound path ∧ ∃ before name parent, Path.steps path = before ++ [name] ∧
      tree.walk (tree.base path) before = .ok parent ∧ location = parent ++ [name] := by
  obtain ⟨parent, name, htarget, rfl⟩ := place?_eq_some_iff.mp hplace
  obtain ⟨hsound, before, hsteps, hwalk⟩ := walk_of_target htarget
  exact ⟨hsound, before, name, parent, hsteps, hwalk, rfl⟩

/-- A path leads to a directory exactly if all its steps do. -/
theorem stat_directory_iff_walk {tree : FileTree} {path : String} :
    tree.stat path = .ok .directory ↔
      Path.Sound path ∧ ∃ location, tree.walk (tree.base path) (Path.steps path) =
        .ok location := by
  rw [stat_eq_directory_iff]
  simp only [target_eq_ok_iff, Path.steps, ← walk_moves]
  generalize ((Path.segments path.toList).2.filter (· ≠ [])).map String.ofList = names
  generalize (path.toList.getLast? == some '/') = slash
  generalize tree.base path = start
  by_cases hsound : ¬Path.Sound path
  · simp [hsound]
  simp only [not_not.mp hsound, true_and]
  induction names using List.reverseRecOn with
  | nil => simp [follow]
  | append_singleton init last _ =>
      rw [follow_append, walk_append]
      cases tree.walk start init with
      | error fault => simp
      | ok next =>
          simp only [walk_singleton, follow, enter]
          by_cases hdot : last = "."
          · simp [hdot]
          by_cases hup : last = ".."
          · simp [hup]
          by_cases hlong : nameLimit < last.utf8ByteSize
          · simp [hdot, hup, hlong]
          simp only [hdot, hup, hlong, if_false, Except.ok.injEq, Target.entry.injEq,
            reduceCtorEq, exists_false, false_or]
          cases hnode : tree.node? (next ++ [last]) with
          | none =>
              simp only [reduceCtorEq, exists_false, iff_false]
              rintro ⟨parent, name, slash', ⟨rfl, rfl, -⟩, hdir⟩
              rw [hnode] at hdir
              contradiction
          | some node =>
              cases node with
              | file content =>
                  simp only [reduceCtorEq, exists_false, iff_false]
                  rintro ⟨parent, name, slash', ⟨rfl, rfl, -⟩, hdir⟩
                  rw [hnode] at hdir
                  simp at hdir
              | directory =>
                  simp only [Except.ok.injEq, exists_eq', iff_true]
                  exact ⟨next, last, slash, ⟨rfl, rfl, rfl⟩, hnode⟩

/-! ## Parents and siblings -/

section Parents

variable {tree : FileTree} {path parent : String}

theorem base_parent? (hparent : Path.parent? path = some parent) :
    tree.base parent = tree.base path := by
  rw [base, base, (Path.steps_of_parent? hparent).1]

theorem stat_parent?_of_directory (hparent : Path.parent? path = some parent)
    (hne : parent ≠ "") (hstat : tree.stat path = .ok .directory) :
    tree.stat parent = .ok .directory := by
  rw [stat_directory_iff_walk] at hstat ⊢
  obtain ⟨hsound, location, hwalk⟩ := hstat
  obtain ⟨-, last, hsteps, -⟩ := Path.steps_of_parent? hparent
  refine ⟨hsound.of_isPrefix (Path.parent?_isPrefix hparent) hne, ?_⟩
  rw [base_parent? hparent]
  rw [hsteps, walk_append] at hwalk
  cases hbefore : tree.walk (tree.base path) (Path.steps parent) with
  | error fault => simp [hbefore] at hwalk
  | ok next => exact ⟨next, rfl⟩

theorem stat_parent?_of_target (hparent : Path.parent? path = some parent)
    (hne : parent ≠ "") {location : Location} {name : String} {slash : Bool}
    (htarget : tree.target path = .ok (.entry location name slash)) :
    tree.stat parent = .ok .directory := by
  obtain ⟨hsound, before, hbefore, hwalk⟩ := walk_of_target htarget
  obtain ⟨-, last, hsteps, -, hlast⟩ := Path.steps_of_parent? hparent
  obtain ⟨final, rfl⟩ := hlast hne
  rw [hbefore] at hsteps
  rw [stat_directory_iff_walk]
  refine ⟨hsound.of_isPrefix (Path.parent?_isPrefix hparent) hne, location, ?_⟩
  rw [base_parent? hparent, ← (List.append_inj' hsteps rfl).1]
  exact hwalk

end Parents

/-- Paths with the same steps from the same start lead to the same place. -/
theorem place?_eq_of_steps {tree : FileTree} {path other : String}
    (hbase : Path.isAbsolute path = Path.isAbsolute other)
    (hsteps : Path.steps path = Path.steps other) {location place : Location}
    (hpath : tree.place? path = some location) (hother : tree.place? other = some place) :
    location = place := by
  obtain ⟨-, before, name, parent, hbefore, hwalk, rfl⟩ := walk_of_place? hpath
  obtain ⟨-, before', name', parent', hbefore', hwalk', rfl⟩ := walk_of_place? hother
  rw [hbefore, hbefore'] at hsteps
  obtain ⟨rfl, hlast⟩ := List.append_inj' hsteps rfl
  rw [base, hbase, ← base, hwalk', Except.ok.injEq] at hwalk
  rw [hwalk, hlast]

theorem last_of_place? {tree : FileTree} {path name : String} {location : Location}
    (hplace : tree.place? path = some location) (hname : Path.fileName? path = some name) :
    location.getLast? = some name := by
  obtain ⟨-, before, last, parent, hbefore, -, rfl⟩ := walk_of_place? hplace
  obtain ⟨above, habove⟩ := Path.exists_parent? hname
  obtain ⟨-, rest, hsteps, hrest, -⟩ := Path.steps_of_parent? habove
  rw [hrest name hname, hbefore] at hsteps
  obtain ⟨-, hlast⟩ := List.append_inj' hsteps rfl
  rw [List.getLast?_append, hlast]
  rfl

/-- A path has a place only if its last name is an ordinary one. -/
theorem ordinary_of_place? {tree : FileTree} {base name : String} (hname : Path.Bare name)
    {location : Location} (hplace : tree.place? (Path.append base name) = some location) :
    Path.Ordinary name := by
  obtain ⟨parent, last, htarget, -⟩ := place?_eq_some_iff.mp hplace
  obtain ⟨before, hsegments, -⟩ := Path.segments_append_name base hname
  obtain ⟨-, hfollow⟩ := target_eq_ok_iff.mp htarget
  rw [hsegments, List.filter_append,
    List.filter_cons_of_pos (by simpa using hname.ne_empty), List.filter_nil, List.map_append,
    List.map_singleton, String.ofList_toList, follow_append] at hfollow
  split at hfollow
  · contradiction
  · refine ⟨hname, ?_, ?_⟩
    · rintro rfl
      simp [follow] at hfollow
    · rintro rfl
      simp [follow] at hfollow

/-- A path and its sibling with a longer name never lead to the same place. -/
theorem place?_ne_of_sibling {tree : FileTree} {path name suffix : String}
    (hname : Path.fileName? path = some name) (hslash : '/' ∉ suffix.toList)
    (hlong : 2 ≤ suffix.toList.length) {location : Location}
    (hsibling : tree.place? (Path.sibling path suffix) = some location) :
    tree.place? path ≠ some location := by
  intro hplace
  have hlast := last_of_place? hplace hname
  rw [last_of_place? hsibling (Path.fileName?_sibling hname hslash hlong),
    Option.some.injEq] at hlast
  have hlength := congrArg (fun text => text.toList.length) hlast
  simp only [String.toList_append, List.length_append] at hlength
  omega

end FileTree
end ZoneDemand
