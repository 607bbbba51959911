import ZoneDemand.Proofs.Outcomes
import ZoneDemand.Proofs.Text.Order
import ZoneDemand.Store

/-!
# The objects of a store

What a store holds under a key, whatever kind of store it is and however its calls fail:
a size that a store tells is that of the object, a read answers the beginning of what it
was asked for, and keys are listed in the order of their octets.
-/

namespace ZoneDemand

theorem Key.isDirectory_root : Key.isDirectory Key.root = true := rfl

namespace MemoryStore

variable {store : MemoryStore} {key : String}

/-- The object under a normalised key; a directory is empty. -/
def found? (store : MemoryStore) (key : String) : Option Bytes :=
  if Key.isDirectory key then some [] else store.object? key

theorem read_eq {start finish : Nat} {bytes : Bytes}
    (hread : store.read key start finish = .ok bytes) :
    ∃ data, store.found? key = some data ∧ bytes <+: (data.drop start).take (finish - start) := by
  unfold read at hread
  unfold found?
  by_cases hdir : Key.isDirectory key = true
  · simp [hdir] at hread
  rw [if_neg hdir] at hread ⊢
  split at hread
  · simp at hread
  · split at hread
    · simp at hread
    · rename_i data hdata
      refine ⟨data, hdata, ?_⟩
      rw [Except.ok.injEq] at hread
      rw [← hread]
      split
      · rw [List.drop_take, List.take_take]
        exact List.take_prefix_take_left (Nat.min_le_left _ _)
      · exact List.prefix_refl _

theorem size_eq {size : Nat} (hsize : store.size key = .ok size) :
    ∃ data, store.found? key = some data ∧ size = data.length := by
  unfold MemoryStore.size at hsize
  unfold found?
  by_cases hroot : key = Key.root
  · rw [if_pos hroot, Except.ok.injEq] at hsize
    rw [hroot, if_pos Key.isDirectory_root]
    exact ⟨[], rfl, hsize.symm⟩
  rw [if_neg hroot] at hsize
  split at hsize
  · simp at hsize
  · by_cases hdir : Key.isDirectory key = true
    · rw [if_pos hdir] at hsize ⊢
      split at hsize
      · exact ⟨[], rfl, (Except.ok.inj hsize).symm⟩
      · simp at hsize
    · rw [if_neg hdir] at hsize ⊢
      split at hsize
      · rename_i data hdata
        exact ⟨data, hdata, (Except.ok.inj hsize).symm⟩
      · simp at hsize

end MemoryStore

namespace DirectoryStore

variable {store : DirectoryStore} {tree : FileTree} {key : String}

/-- The object under a normalised key, a file below the root of the store. -/
def found? (store : DirectoryStore) (tree : FileTree) (key : String) : Option Bytes :=
  if key = Key.root then some []
  else if Key.isDirectory key then none
  else (tree.read (store.path key)).toOption

theorem read_eq {start finish : Nat} {bytes : Bytes}
    (hread : store.read tree key start finish = .ok bytes) :
    ∃ data, store.found? tree key = some data ∧
      bytes <+: (data.drop start).take (finish - start) := by
  unfold DirectoryStore.read at hread
  unfold found?
  by_cases hdir : Key.isDirectory key = true
  · simp [hdir] at hread
  have hroot : key ≠ Key.root := by
    rintro rfl
    exact hdir Key.isDirectory_root
  rw [if_neg hdir] at hread
  rw [if_neg hroot, if_neg hdir]
  split at hread
  · rename_i data hdata
    refine ⟨data, by rw [hdata]; rfl, ?_⟩
    split at hread
    · rw [Except.ok.injEq] at hread
      subst hread
      exact List.prefix_refl _
    · simp at hread
  · simp at hread

/-- The size of a directory of the file system is no size of an object. -/
theorem size_eq {size : Nat} (hsize : store.size tree key = .ok size) :
    (∃ data, store.found? tree key = some data ∧ size = data.length) ∨
      0 < size ∧ ∀ start finish bytes, store.read tree key start finish ≠ .ok bytes := by
  unfold DirectoryStore.size at hsize
  unfold found?
  by_cases hroot : key = Key.root
  · rw [if_pos hroot, Except.ok.injEq] at hsize
    rw [if_pos hroot]
    exact .inl ⟨[], rfl, hsize.symm⟩
  rw [if_neg hroot] at hsize ⊢
  split at hsize
  · rename_i data hstat
    left
    by_cases hdir : Key.isDirectory key = true
    · simp [hdir] at hsize
    · rw [if_neg hdir, Except.ok.injEq] at hsize
      rw [if_neg hdir]
      exact ⟨data, by simp [FileTree.read, hstat, Except.toOption], hsize.symm⟩
  · rename_i hstat
    right
    rw [Except.ok.injEq] at hsize
    refine ⟨by rw [← hsize]; exact Nat.succ_pos _, ?_⟩
    intro start finish bytes hread
    unfold DirectoryStore.read at hread
    split at hread <;> simp [FileTree.read, hstat] at hread
  · simp at hsize

end DirectoryStore

namespace ObjectStore

def object? (store : ObjectStore) (tree : FileTree) (key : String) : Option Bytes :=
  match store with
  | .memory m => m.found? (Key.normalize key)
  | .directory d => d.found? tree (Key.normalize key)
  | .bucket t => t.object? (Key.normalize key)

variable {store : ObjectStore} {tree : FileTree} {key : String}

theorem read_eq {start finish : Nat} {bytes : Bytes}
    (hread : store.read tree key start finish = .ok bytes) :
    ∃ data, store.object? tree key = some data ∧
      bytes <+: (data.drop start).take (finish - start) := by
  cases store with
  | memory m =>
      simp only [ObjectStore.read, mapError_eq_ok_iff] at hread
      exact m.read_eq hread
  | directory d =>
      simp only [ObjectStore.read, mapError_eq_ok_iff] at hread
      exact d.read_eq hread
  | bucket t =>
      simp only [ObjectStore.read, mapError_eq_ok_iff] at hread
      exact t.read_eq hread

/-- A size that a store tells is that of the object, or nothing can be read. -/
theorem size_eq {size : Nat} (hsize : store.size tree key = .ok size) :
    (∃ data, store.object? tree key = some data ∧ size = data.length) ∨
      0 < size ∧ ∀ start finish bytes, store.read tree key start finish ≠ .ok bytes := by
  cases store with
  | memory m =>
      simp only [ObjectStore.size, statSize, mapError_eq_ok_iff] at hsize
      exact .inl (m.size_eq hsize)
  | directory d =>
      simp only [ObjectStore.size, statSize, mapError_eq_ok_iff] at hsize
      simp only [ObjectStore.read, ne_eq, mapError_eq_ok_iff]
      exact d.size_eq hsize
  | bucket t =>
      simp only [ObjectStore.size, statSize, mapError_eq_ok_iff] at hsize
      exact .inl (t.size_eq hsize)

theorem read_error {start finish : Nat} {e : StorageError}
    (hread : store.read tree key start finish = .error e) : ∃ fault, e = .fetch key fault := by
  unfold ObjectStore.read at hread
  obtain ⟨fault, -, rfl⟩ := mapError_eq_error_iff.mp hread
  exact ⟨_, rfl⟩

theorem size_error {e : StorageError} (hsize : store.size tree key = .error e) :
    ∃ fault, e = .fetch key fault := by
  obtain ⟨fault, -, rfl⟩ := mapError_eq_error_iff.mp hsize
  exact ⟨_, rfl⟩

theorem sorted_list {stem : String} {keys : List String}
    (hlist : store.list tree stem = .ok keys) :
    keys.Pairwise fun a b => Utf8.encode a ≤ Utf8.encode b := by
  have hsorted : ∀ listed : List String,
      (listed.mergeSort fun a b => decide (a ≤ b)).Pairwise fun a b => a ≤ b := by
    intro listed
    have hpairwise : (listed.mergeSort fun a b => decide (a ≤ b)).Pairwise
        fun a b => decide (a ≤ b) = true :=
      List.pairwise_mergeSort (by simpa using fun a b c => String.le_trans)
        (by simpa using String.le_total) listed
    simpa using hpairwise
  have hkeys : ∃ listed : List String, keys = listed.mergeSort fun a b => decide (a ≤ b) := by
    unfold list at hlist
    cases store with
    | memory m =>
        cases hlisted : m.list (Key.normalize stem) with
        | error fault => simp [hlisted] at hlist
        | ok listed => exact ⟨listed, by simpa [hlisted, eq_comm] using hlist⟩
    | directory d =>
        cases hlisted : d.list tree (Key.normalize stem) with
        | error fault => simp [hlisted] at hlist
        | ok listed => exact ⟨listed, by simpa [hlisted, eq_comm] using hlist⟩
    | bucket t =>
        cases hlisted : t.list (Key.normalize stem) with
        | error fault => simp [hlisted] at hlist
        | ok listed => exact ⟨listed, by simpa [hlisted, eq_comm] using hlist⟩
  obtain ⟨listed, rfl⟩ := hkeys
  simp only [Utf8.encode_le_iff]
  exact hsorted listed

end ObjectStore
end ZoneDemand
