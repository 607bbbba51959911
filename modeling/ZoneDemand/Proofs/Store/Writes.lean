import Mathlib.Data.Sum.Basic
import ZoneDemand.Proofs.Dataset.Frame
import ZoneDemand.Proofs.Store.Objects
import ZoneDemand.Proofs.Upload.Effect

/-!
# Writing an object

Local files and objects have their sites, a location or a key; an object of a store in a
directory is a local file.  A write that answers changes what is held at one site only.
Without faults a write answers wherever no directory is in its way.
-/

namespace ZoneDemand

namespace Transport

/-- Of the next `n` writes, those that answer leave the octets under their key, which is
not that of a directory, and every other object as it was. -/
def Truthful : Nat → Transport → Prop
  | 0, _ => True
  | n + 1, t => ∀ key data later, t.write key data = .ok later →
      Key.isDirectory key = false ∧
        later.object? = Function.update t.object? key (some data) ∧ Truthful n later

/-- No call fails up to the end of the next `n` writes. -/
def Answers : Nat → Transport → Prop
  | 0, _ => True
  | n + 1, t => ∀ key, Key.isDirectory key = false →
      ((∃ size, t.size key = .ok size) ∨ t.size key = .error .notFound) ∧
        ∀ data, ∃ later, t.write key data = .ok later ∧ Answers n later

end Transport

/-- Where octets are held: at a location of the local tree or under a key. -/
abbrev Site := Location ⊕ String

namespace ObjectStore

def Truthful (n : Nat) : ObjectStore → Prop
  | .bucket t => t.Truthful n
  | _ => True

/-- No call on the store fails up to the end of the next `n` writes, unless the local tree
refuses it. -/
def Faultless (n : Nat) : ObjectStore → Prop
  | .memory m => m.outages = []
  | .directory _ => True
  | .bucket t => t.Truthful n ∧ t.Answers n

theorem Faultless.truthful {n : Nat} {store : ObjectStore} (h : store.Faultless n) :
    store.Truthful n := by
  cases store with
  | memory m => exact trivial
  | directory d => exact trivial
  | bucket t => exact h.1

/-- The object under a normalised key, in a store that is not in the local tree. -/
def keyed? : ObjectStore → String → Option Bytes
  | .memory m => m.object?
  | .directory _ => fun _ => none
  | .bucket t => t.object?

def held (store : ObjectStore) (tree : FileTree) : Site → Option Bytes :=
  Sum.elim tree.content? store.keyed?

def directory? : ObjectStore → Option DirectoryStore
  | .directory d => some d
  | _ => none

def siteIn (directory? : Option DirectoryStore) (workingDirectory : Location) (key : String) :
    Site :=
  match directory? with
  | some d => .inl (Path.location workingDirectory (d.path (Key.normalize key)))
  | none => .inr (Key.normalize key)

/-- Where the object of a key is held. -/
def site (store : ObjectStore) (tree : FileTree) (key : String) : Site :=
  siteIn store.directory? tree.workingDirectory key

/-- The local path of an object leads to a name in a directory. -/
def HasPlace (store : ObjectStore) (tree : FileTree) (key : String) : Prop :=
  ∀ d, store.directory? = some d → tree.HasPlace (d.path (Key.normalize key))

section Sites

variable {tree files : FileTree} {key : String}

@[simp] theorem site_memory (m : MemoryStore) :
    (memory m).site tree key = .inr (Key.normalize key) := rfl

@[simp] theorem site_bucket (t : Transport) :
    (bucket t).site tree key = .inr (Key.normalize key) := rfl

@[simp] theorem site_directory (d : DirectoryStore) :
    (directory d).site tree key = .inl (tree.location (d.path (Key.normalize key))) := rfl

@[simp] theorem held_inl (store : ObjectStore) (location : Location) :
    store.held tree (.inl location) = tree.content? location := rfl

@[simp] theorem held_inr (store : ObjectStore) :
    store.held tree (.inr key) = store.keyed? key := rfl

theorem held_of_content? (store : ObjectStore) {location : Location} {value : Option Bytes}
    (h : files.content? = Function.update tree.content? location value) :
    store.held files = Function.update (store.held tree) (.inl location) value := by
  rw [held, h, held, Sum.update_elim_inl]

theorem held_of_keyed? {store written : ObjectStore} {value : Option Bytes}
    (h : written.keyed? = Function.update store.keyed? key value) :
    written.held tree = Function.update (store.held tree) (.inr key) value := by
  rw [held, h, held, Sum.update_elim_inr]

end Sites

theorem object?_eq_held {store : ObjectStore} {tree : FileTree} {key : String}
    (hkey : Key.isDirectory (Key.normalize key) = false) (hplace : store.HasPlace tree key) :
    store.object? tree key = store.held tree (store.site tree key) := by
  cases store with
  | memory m => simp [object?, MemoryStore.found?, keyed?, hkey]
  | bucket t => simp [object?, keyed?]
  | directory d =>
      have hroot : Key.normalize key ≠ Key.root := by
        intro hroot
        rw [hroot, Key.isDirectory_root] at hkey
        contradiction
      rw [site_directory, held_inl, ← FileTree.toOption_read (hplace d rfl)]
      simp [object?, DirectoryStore.found?, hroot, hkey]

/-- What a write that answers has done. -/
structure Stored (n : Nat) (store : ObjectStore) (tree : FileTree) (key : String) (data : Bytes)
    (written : ObjectStore) (files : FileTree) : Prop where
  ordinary : Key.isDirectory (Key.normalize key) = false
  keepsDirectories : FileTree.KeepsDirectories tree files
  directory : written.directory? = store.directory?
  unchanged : store.directory? = none → files = tree
  truthful : written.Truthful n
  hasPlace : written.HasPlace files key
  held : written.held files = Function.update (store.held tree) (store.site tree key) (some data)

end ObjectStore

namespace MemoryStore

variable {store : MemoryStore} {key : String}

theorem size_of_no_outage (houtages : store.outages = [])
    (hkey : Key.isDirectory key = false) :
    (∃ size, store.size key = .ok size) ∨ store.size key = .error .notFound := by
  have hroot : key ≠ Key.root := by
    rintro rfl
    rw [Key.isDirectory_root] at hkey
    contradiction
  simp only [MemoryStore.size, outage?, houtages, hkey, hroot, List.find?_nil, Option.map_none]
  cases store.object? key <;> simp

theorem write_of_no_outage (houtages : store.outages = [])
    (hkey : Key.isDirectory key = false) (data : Bytes) :
    ∃ written, store.write key data = .ok written ∧ written.outages = [] := by
  simp [MemoryStore.write, outage?, hkey, houtages]

end MemoryStore

namespace DirectoryStore

theorem write_eq_ok {store : DirectoryStore} {tree files : FileTree} {key : String}
    {data : Bytes} (hwrite : store.write tree key data = (files, .ok ())) :
    Key.isDirectory key = false ∧ FileTree.KeepsDirectories tree files ∧
      files.HasPlace (store.path key) ∧
      files.content? =
        Function.update tree.content? (tree.location (store.path key)) (some data) := by
  unfold DirectoryStore.write at hwrite
  by_cases hkey : Key.isDirectory key = true
  · simp [hkey] at hwrite
  rw [if_neg hkey] at hwrite
  simp only at hwrite
  have hextends := FileTree.extends_makeDirectoriesUpTo
    (((Path.parent? (store.path key)).getD "").length + 1) tree
    ((Path.parent? (store.path key)).getD "")
  have hcontents := FileTree.content?_makeDirectoriesUpTo
    (((Path.parent? (store.path key)).getD "").length + 1) tree
    ((Path.parent? (store.path key)).getD "")
  rw [← FileTree.makeDirectories] at hextends hcontents
  split at hwrite
  · simp at hwrite
  · rename_i made hmade
    rw [hmade] at hextends hcontents
    split at hwrite
    · rename_i written hwritten
      simp only [Prod.mk.injEq, and_true] at hwrite
      subst hwrite
      obtain ⟨hplace, hdiffers, hcontent⟩ := FileTree.content?_of_write hwritten
      have hkeeps := hextends.keepsDirectories
      refine ⟨by simpa using hkey, hkeeps.trans hdiffers.keepsDirectories,
        hplace.of_keepsDirectories hdiffers.keepsDirectories, ?_⟩
      rw [hcontent, hcontents, hkeeps.location_eq]
    · simp at hwrite

theorem write_of_hasPlace {store : DirectoryStore} {tree : FileTree} {key : String}
    (hkey : Key.isDirectory key = false) (hplace : tree.HasPlace (store.path key))
    (hnode : tree.node? (tree.location (store.path key)) ≠ some .directory) (data : Bytes) :
    ∃ files, store.write tree key data = (files, .ok ()) ∧
      FileTree.SameDirectories tree files := by
  obtain ⟨files, hfiles, hsame, -⟩ := FileTree.write_of_hasPlace hplace hnode data
  obtain ⟨parent, name, htarget, -⟩ := FileTree.place?_eq_some_iff.mp hplace
  have habove : (Path.parent? (store.path key)).getD "" = "" ∨
      tree.stat ((Path.parent? (store.path key)).getD "") = .ok .directory := by
    cases hparent : Path.parent? (store.path key) with
    | none => exact .inl rfl
    | some above =>
        by_cases hempty : above = ""
        · exact .inl hempty
        · exact .inr (FileTree.stat_parent?_of_target hparent hempty htarget)
  have hmade := FileTree.makeDirectoriesUpTo_of_directory
    ((Path.parent? (store.path key)).getD "").length habove
  rw [← FileTree.makeDirectories] at hmade
  refine ⟨files, ?_, hsame⟩
  unfold DirectoryStore.write
  rw [if_neg (by simp [hkey])]
  simp only
  rw [hmade]
  simp only
  rw [hfiles]

theorem size_of_hasPlace {store : DirectoryStore} {tree : FileTree} {key : String}
    (hkey : Key.isDirectory key = false) (hplace : tree.HasPlace (store.path key))
    (hnode : tree.node? (tree.location (store.path key)) ≠ some .directory) :
    (∃ size, store.size tree key = .ok size) ∨ store.size tree key = .error .notFound := by
  obtain ⟨parent, name, htarget, hlocation⟩ := FileTree.place?_eq_some_iff.mp hplace
  rw [hlocation] at hnode
  have hroot : key ≠ Key.root := by
    rintro rfl
    rw [Key.isDirectory_root] at hkey
    contradiction
  unfold DirectoryStore.size
  rw [if_neg hroot]
  cases hentry : tree.node? (parent ++ [name]) with
  | none =>
      right
      simp [FileTree.stat, htarget, hentry, faultOf]
  | some node =>
      cases node with
      | file content =>
          left
          simp [FileTree.stat, htarget, hentry, hkey]
      | directory => exact absurd hentry hnode

end DirectoryStore

namespace ObjectStore

variable {n : Nat} {store written : ObjectStore} {tree files : FileTree} {key : String}
  {data : Bytes}

theorem write_eq_ok (htruthful : store.Truthful (n + 1))
    (hwrite : store.write tree key data = (written, files, .ok ())) :
    Stored n store tree key data written files := by
  cases store with
  | memory m =>
      cases hresult : m.write (Key.normalize key) data with
      | error fault => simp [ObjectStore.write, hresult] at hwrite
      | ok later =>
          simp only [ObjectStore.write, hresult, Prod.mk.injEq, and_true] at hwrite
          obtain ⟨rfl, rfl⟩ := hwrite
          obtain ⟨hkey, hobject, hothers⟩ := MemoryStore.write_eq_ok hresult
          have hobjects : later.object? =
              Function.update m.object? (Key.normalize key) (some data) :=
            Function.eq_update_iff.mpr ⟨hobject, hothers⟩
          refine ⟨hkey, (FileTree.Extends.refl tree).keepsDirectories, rfl, fun _ => rfl, trivial,
            ?_, ?_⟩
          · intro d hd
            contradiction
          · rw [site_memory]
            exact held_of_keyed? hobjects
  | directory d =>
      cases hresult : d.write tree (Key.normalize key) data with
      | mk made outcome =>
          cases outcome with
          | error fault => simp [ObjectStore.write, hresult] at hwrite
          | ok u =>
              simp only [ObjectStore.write, hresult, Prod.mk.injEq, and_true] at hwrite
              obtain ⟨rfl, rfl⟩ := hwrite
              obtain ⟨hkey, hkeeps, hplace, hcontent⟩ := DirectoryStore.write_eq_ok hresult
              refine ⟨hkey, hkeeps, rfl, fun hnone => ?_, trivial, ?_, ?_⟩
              · simp [directory?] at hnone
              · intro other hother
                rw [← Option.some.inj hother]
                exact hplace
              · rw [site_directory]
                exact held_of_content? _ hcontent
  | bucket t =>
      cases hresult : t.write (Key.normalize key) data with
      | error fault => simp [ObjectStore.write, hresult] at hwrite
      | ok later =>
          simp only [ObjectStore.write, hresult, Prod.mk.injEq, and_true] at hwrite
          obtain ⟨rfl, rfl⟩ := hwrite
          obtain ⟨hkey, hobjects, hlater⟩ := htruthful _ _ _ hresult
          refine ⟨hkey, (FileTree.Extends.refl tree).keepsDirectories, rfl, fun _ => rfl, hlater,
            ?_, ?_⟩
          · intro d hd
            contradiction
          · rw [site_bucket]
            exact held_of_keyed? hobjects

/-- No directory is where the store keeps the object of a key. -/
def Room (store : ObjectStore) (tree : FileTree) (key : String) : Prop :=
  ∀ d, store.directory? = some d → tree.HasPlace (d.path (Key.normalize key)) ∧
    tree.node? (tree.location (d.path (Key.normalize key))) ≠ some .directory

theorem Room.of_sameDirectories {other : ObjectStore} (hroom : store.Room tree key)
    (hdirectory : other.directory? = store.directory?)
    (h : FileTree.SameDirectories tree files) : other.Room files key := by
  intro d hd
  rw [hdirectory] at hd
  obtain ⟨hplace, hnode⟩ := hroom d hd
  rw [h.1.location_eq]
  exact ⟨hplace.of_keepsDirectories h.1, h.node?_ne hnode⟩

theorem contains_of_faultless (hfaultless : store.Faultless (n + 1))
    (hkey : Key.isDirectory (Key.normalize key) = false) (hroom : store.Room tree key) :
    ∃ replaces, store.contains tree key = .ok replaces := by
  have hsize : (∃ size, store.statSize tree key = .ok size) ∨
      store.statSize tree key = .error .notFound := by
    unfold statSize
    cases store with
    | memory m => exact MemoryStore.size_of_no_outage hfaultless hkey
    | directory d =>
        obtain ⟨hplace, hnode⟩ := hroom d rfl
        exact DirectoryStore.size_of_hasPlace hkey hplace hnode
    | bucket t => exact (hfaultless.2 _ hkey).1
  unfold contains
  rcases hsize with ⟨size, hsize⟩ | hmissing
  · exact ⟨true, by rw [hsize]⟩
  · exact ⟨false, by rw [hmissing]⟩

theorem write_of_faultless (hfaultless : store.Faultless (n + 1))
    (hkey : Key.isDirectory (Key.normalize key) = false) (hroom : store.Room tree key)
    (data : Bytes) :
    ∃ written files, store.write tree key data = (written, files, .ok ()) ∧
      FileTree.SameDirectories tree files ∧ written.Faultless n := by
  cases store with
  | memory m =>
      obtain ⟨later, hwrite, houtages⟩ := MemoryStore.write_of_no_outage hfaultless hkey data
      refine ⟨.memory later, tree, ?_, .refl tree, houtages⟩
      simp only [ObjectStore.write, hwrite]
  | directory d =>
      obtain ⟨hplace, hnode⟩ := hroom d rfl
      obtain ⟨files, hwrite, hsame⟩ :=
        DirectoryStore.write_of_hasPlace hkey hplace hnode data
      refine ⟨.directory d, files, ?_, hsame, trivial⟩
      simp only [ObjectStore.write, hwrite]
  | bucket t =>
      obtain ⟨later, hwrite, hanswers⟩ := (hfaultless.2 _ hkey).2 data
      obtain ⟨-, -, htruthful⟩ := hfaultless.1 _ _ _ hwrite
      refine ⟨.bucket later, tree, ?_, .refl tree, htruthful, hanswers⟩
      simp only [ObjectStore.write, hwrite]

end ObjectStore
end ZoneDemand
