import ZoneDemand.Proofs.FileTree.Entries
import ZoneDemand.Proofs.Outcomes

/-!
# Where a path leads

A path that leads to a name in a directory, without a slash at its end, has a place.
Reading, writing, removing and moving files are described by places and the entries
there; every failure of them leaves the tree as it was.
-/

namespace ZoneDemand
namespace FileTree

/-- The location at which a path names a file, if there were one. -/
def place? (tree : FileTree) (path : String) : Option Location :=
  match tree.target path with
  | .ok (.entry parent name false) => some (parent ++ [name])
  | _ => none

theorem place?_eq_some_iff {tree : FileTree} {path : String} {location : Location} :
    tree.place? path = some location ↔
      ∃ parent name, tree.target path = .ok (.entry parent name false) ∧
        location = parent ++ [name] := by
  unfold place?
  constructor
  · intro h
    split at h
    · rename_i parent name htarget
      simp only [Option.some.injEq] at h
      exact ⟨parent, name, htarget, h.symm⟩
    · contradiction
  · rintro ⟨parent, name, htarget, rfl⟩
    rw [htarget]

theorem ne_nil_of_place? {tree : FileTree} {path : String} {location : Location}
    (h : tree.place? path = some location) : location ≠ [] := by
  obtain ⟨parent, name, -, rfl⟩ := place?_eq_some_iff.mp h
  simp

theorem place?_of_keepsDirectories {tree later : FileTree} (h : KeepsDirectories tree later)
    {path : String} {location : Location} (hplace : tree.place? path = some location) :
    later.place? path = some location := by
  obtain ⟨parent, name, htarget, rfl⟩ := place?_eq_some_iff.mp hplace
  exact place?_eq_some_iff.mpr ⟨parent, name, target_of_keepsDirectories h htarget, rfl⟩

theorem DiffersAt.place?_eq {location : Location} {tree later : FileTree}
    (h : DiffersAt location tree later) (path : String) :
    later.place? path = tree.place? path := by
  cases hplace : tree.place? path with
  | some place => exact place?_of_keepsDirectories h.keepsDirectories hplace
  | none =>
      cases hlater : later.place? path with
      | none => rfl
      | some place =>
          rw [place?_of_keepsDirectories h.symm.keepsDirectories hlater] at hplace
          contradiction

/-! ## Looking at an entry -/

theorem stat_eq_file_iff {tree : FileTree} {path : String} {content : Bytes} :
    tree.stat path = .ok (.file content) ↔
      ∃ location, tree.place? path = some location ∧
        tree.node? location = some (.file content) := by
  cases htarget : tree.target path with
  | error fault => simp [stat, place?, htarget]
  | ok target =>
      cases target with
      | directory location =>
          simp [stat, place?, htarget]
      | entry parent name slash =>
          cases hnode : tree.node? (parent ++ [name]) with
          | none =>
              cases slash <;>
                simp [stat, place?, htarget, hnode]
          | some node =>
              cases node <;> cases slash <;>
                simp [stat, place?, htarget, hnode]

theorem stat_eq_directory_iff {tree : FileTree} {path : String} :
    tree.stat path = .ok .directory ↔
      (∃ location, tree.target path = .ok (.directory location)) ∨
        ∃ parent name slash, tree.target path = .ok (.entry parent name slash) ∧
          tree.node? (parent ++ [name]) = some .directory := by
  constructor
  · intro hstat
    cases htarget : tree.target path with
    | error fault => simp [stat, htarget] at hstat
    | ok target =>
        cases target with
        | directory location => exact .inl ⟨location, rfl⟩
        | entry parent name slash =>
            refine .inr ⟨parent, name, slash, rfl, ?_⟩
            cases hnode : tree.node? (parent ++ [name]) with
            | none => simp [stat, htarget, hnode] at hstat
            | some node =>
                cases node <;> cases slash <;> simp [stat, htarget, hnode] at hstat ⊢
  · rintro (⟨location, htarget⟩ | ⟨parent, name, slash, htarget, hnode⟩)
    · simp [stat, htarget]
    · simp [stat, htarget, hnode]

theorem read_eq_ok_iff {tree : FileTree} {path : String} {content : Bytes} :
    tree.read path = .ok content ↔
      ∃ location, tree.place? path = some location ∧
        tree.node? location = some (.file content) := by
  rw [← stat_eq_file_iff]
  cases hstat : tree.stat path with
  | error fault => simp [read, hstat]
  | ok node =>
      cases node <;>
        simp [read, hstat]

theorem exists?_eq_true_iff {tree : FileTree} {path : String} :
    tree.exists? path = true ↔
      tree.stat path = .ok .directory ∨ ∃ content, tree.read path = .ok content := by
  simp only [read_eq_ok_iff, ← stat_eq_file_iff, exists?]
  cases hstat : tree.stat path with
  | error fault => simp [Except.isOk, Except.toBool]
  | ok node => cases node <;> simp [Except.isOk, Except.toBool]

theorem isDirectory_eq_true_iff {tree : FileTree} {path : String} :
    tree.isDirectory path = true ↔ tree.stat path = .ok .directory := by
  unfold isDirectory
  split <;> simp_all

theorem stat_directory_of_keepsDirectories {tree later : FileTree}
    (h : KeepsDirectories tree later) {path : String}
    (hstat : tree.stat path = .ok .directory) : later.stat path = .ok .directory := by
  rw [stat_eq_directory_iff] at hstat ⊢
  rcases hstat with ⟨location, htarget⟩ | ⟨parent, name, slash, htarget, hnode⟩
  · exact .inl ⟨location, target_of_keepsDirectories h htarget⟩
  · exact .inr ⟨parent, name, slash, target_of_keepsDirectories h htarget,
      h.directory _ hnode⟩

theorem Extends.read {tree later : FileTree} (h : Extends tree later) {path : String}
    {content : Bytes} (hread : tree.read path = .ok content) :
    later.read path = .ok content := by
  obtain ⟨location, hplace, hnode⟩ := read_eq_ok_iff.mp hread
  exact read_eq_ok_iff.mpr ⟨location, place?_of_keepsDirectories h.keepsDirectories hplace,
    h.node _ _ hnode⟩

theorem DiffersAt.read_iff {location : Location} {tree later : FileTree}
    (h : DiffersAt location tree later) {path : String} {content : Bytes}
    (hplace : tree.place? path ≠ some location) :
    later.read path = .ok content ↔ tree.read path = .ok content := by
  rw [read_eq_ok_iff, read_eq_ok_iff, h.place?_eq]
  constructor
  · rintro ⟨other, hother, hnode⟩
    refine ⟨other, hother, ?_⟩
    rw [← h.node other (by rintro rfl; exact hplace hother)]
    exact hnode
  · rintro ⟨other, hother, hnode⟩
    refine ⟨other, hother, ?_⟩
    rw [h.node other (by rintro rfl; exact hplace hother)]
    exact hnode

theorem DiffersAt.stat_directory_iff {location : Location} {tree later : FileTree}
    (h : DiffersAt location tree later) {path : String} :
    later.stat path = .ok .directory ↔ tree.stat path = .ok .directory :=
  ⟨stat_directory_of_keepsDirectories h.symm.keepsDirectories,
    stat_directory_of_keepsDirectories h.keepsDirectories⟩

theorem DiffersAt.exists?_eq {location : Location} {tree later : FileTree}
    (h : DiffersAt location tree later) {path : String}
    (hplace : tree.place? path ≠ some location) :
    later.exists? path = tree.exists? path := by
  rw [Bool.eq_iff_iff, exists?_eq_true_iff, exists?_eq_true_iff, h.stat_directory_iff]
  simp only [h.read_iff hplace]

/-! ## Changing an entry -/

theorem fileTarget_eq_ok_iff {tree : FileTree} {path : String} {location : Location} :
    tree.fileTarget path = .ok location ↔
      tree.place? path = some location ∧ tree.node? location ≠ some .directory := by
  constructor
  · intro hok
    cases htarget : tree.target path with
    | error fault => simp [fileTarget, htarget] at hok
    | ok target =>
        cases target with
        | directory other => simp [fileTarget, htarget] at hok
        | entry parent name slash =>
            cases slash with
            | true => simp [fileTarget, htarget] at hok
            | false =>
                cases hnode : tree.node? (parent ++ [name]) with
                | none =>
                    simp [fileTarget, htarget, hnode] at hok
                    subst hok
                    simp [place?, htarget, hnode]
                | some node =>
                    cases node <;> simp [fileTarget, htarget, hnode] at hok
                    subst hok
                    simp [place?, htarget, hnode]
  · rintro ⟨hplace, hfile⟩
    obtain ⟨parent, name, htarget, rfl⟩ := place?_eq_some_iff.mp hplace
    cases hnode : tree.node? (parent ++ [name]) with
    | none => simp [fileTarget, htarget, hnode]
    | some node =>
        cases node with
        | file content => simp [fileTarget, htarget, hnode]
        | directory => exact absurd hnode hfile

theorem write_eq_ok_iff {tree written : FileTree} {path : String} {content : Bytes} :
    tree.write path content = .ok written ↔
      ∃ location, tree.place? path = some location ∧
        tree.node? location ≠ some .directory ∧
        written = tree.set location (.file content) := by
  unfold write
  cases htarget : tree.fileTarget path with
  | error fault =>
      simp only [error_bind, reduceCtorEq, false_iff]
      rintro ⟨location, hplace, hfile, -⟩
      rw [fileTarget_eq_ok_iff.mpr ⟨hplace, hfile⟩] at htarget
      contradiction
  | ok location =>
      obtain ⟨hplace, hfile⟩ := fileTarget_eq_ok_iff.mp htarget
      simp only [ok_bind, pure_eq_ok, Except.ok.injEq]
      constructor
      · rintro rfl
        exact ⟨location, hplace, hfile, rfl⟩
      · rintro ⟨other, hother, -, rfl⟩
        rw [hplace, Option.some.injEq] at hother
        subst other
        rfl

theorem remove_eq_ok_iff {tree removed : FileTree} {path : String} :
    tree.remove path = .ok removed ↔
      ∃ location content, tree.place? path = some location ∧
        tree.node? location = some (.file content) ∧ removed = tree.erase location := by
  cases htarget : tree.target path with
  | error fault => simp [remove, place?, htarget]
  | ok target =>
      cases target with
      | directory other =>
          simp [remove, place?, htarget]
      | entry parent name slash =>
          cases hnode : tree.node? (parent ++ [name]) with
          | none =>
              cases slash <;>
                simp [remove, place?, htarget, hnode]
          | some node =>
              cases node <;> cases slash <;>
                simp [remove, place?, htarget, hnode, eq_comm]

theorem rename_eq_ok_iff {tree moved : FileTree} {source destination : String} :
    tree.rename source destination = .ok moved ↔
      ∃ location content place, tree.place? source = some location ∧
        tree.node? location = some (.file content) ∧
        tree.place? destination = some place ∧ tree.node? place ≠ some .directory ∧
        moved = if location = place then tree
          else (tree.erase location).set place (.file content) := by
  constructor
  · intro hok
    cases hsource : tree.target source with
    | error fault => simp [rename, hsource] at hok
    | ok target =>
        cases hdestination : tree.target destination with
        | error fault => simp [rename, hsource, hdestination] at hok
        | ok newTarget =>
            cases target with
            | directory other => simp [rename, hsource, hdestination] at hok
            | entry parent name slash =>
                cases newTarget with
                | directory other => simp [rename, hsource, hdestination] at hok
                | entry newParent newName newSlash =>
                    cases hnode : tree.node? (parent ++ [name]) with
                    | none => simp [rename, hsource, hdestination, hnode] at hok
                    | some node =>
                        cases node with
                        | directory => simp [rename, hsource, hdestination, hnode] at hok
                        | file content =>
                            cases slash <;> cases newSlash <;>
                              simp [rename, hsource, hdestination, hnode] at hok
                            refine ⟨parent ++ [name], content, newParent ++ [newName],
                              by simp [place?, hsource], hnode,
                              by simp [place?, hdestination], ?_, ?_⟩
                            · intro hdir
                              simp [hdir] at hok
                            · split at hok
                              · contradiction
                              · by_cases hsame : parent ++ [name] = newParent ++ [newName]
                                · rw [if_pos (by simpa using hsame)] at hok
                                  rw [if_pos hsame]
                                  exact (Except.ok.inj hok).symm
                                · rw [if_neg (by simpa using hsame)] at hok
                                  rw [if_neg hsame]
                                  exact (Except.ok.inj hok).symm
  · rintro ⟨location, content, place, hsource, hnode, hdestination, hfile, rfl⟩
    obtain ⟨parent, name, hsourceTarget, rfl⟩ := place?_eq_some_iff.mp hsource
    obtain ⟨newParent, newName, hnewTarget, rfl⟩ := place?_eq_some_iff.mp hdestination
    simp only [rename, hsourceTarget, hnewTarget, hnode, ok_bind]
    by_cases hsame : parent ++ [name] = newParent ++ [newName]
    · simp [hsame]
    · rw [if_neg hsame, if_neg hsame]
      simp

end FileTree
end ZoneDemand
