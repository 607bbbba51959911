import ZoneDemand.Pipeline
import ZoneDemand.Proofs.Association
import ZoneDemand.Proofs.Outcomes
import ZoneDemand.Proofs.Upload.Keys

/-!
# The effect of an upload

An upload to a store in memory either fails and changes nothing, or it leaves the bytes of
the local file under its key and every other object as it was.  No upload to such a store
changes a local file.
-/

namespace ZoneDemand

namespace MemoryStore

theorem write_eq_ok {store written : MemoryStore} {key : String} {data : Bytes}
    (hwrite : store.write key data = .ok written) :
    Key.isDirectory key = false ∧ written.object? key = some data ∧
      ∀ other, other ≠ key → written.object? other = store.object? other := by
  unfold write at hwrite
  by_cases hdir : Key.isDirectory key = true
  · simp [hdir] at hwrite
  rw [if_neg hdir] at hwrite
  split at hwrite
  · simp at hwrite
  · rw [Except.ok.injEq] at hwrite
    subst hwrite
    refine ⟨by simpa using hdir, ?_, ?_⟩
    · simp [object?, lookup_setValue]
    · intro other hother
      simp [object?, lookup_setValue, hother]

end MemoryStore

/-- What uploading a local file under a key can have done to the objects. -/
inductive UploadEffect (m : MemoryStore) (files : FileTree) (path key : String) :
    Except StorageError Nat → MemoryStore → Prop where
  | failed {e : StorageError} : UploadEffect m files path key (.error e) m
  | stored {data : Bytes} {written : MemoryStore} (hread : files.read path = .ok data)
      (hkey : Key.isDirectory (Key.normalize key) = false)
      (hobject : written.object? (Key.normalize key) = some data)
      (hothers : ∀ other, other ≠ Key.normalize key →
        written.object? other = m.object? other) :
      UploadEffect m files path key (.ok data.length) written

namespace Upload

theorem run_memory (m : MemoryStore) (files : FileTree) (path key : String) :
    (run (.memory m) files path key).files = files ∧
      ∃ written, (run (.memory m) files path key).store = .memory written ∧
        UploadEffect m files path key (run (.memory m) files path key).outcome written := by
  unfold run
  split
  · exact ⟨rfl, m, rfl, .failed⟩
  · rename_i data hread
    split
    · exact ⟨rfl, m, rfl, .failed⟩
    · simp only [ObjectStore.write]
      cases hwrite : m.write (Key.normalize key) data with
      | error fault => exact ⟨rfl, m, rfl, .failed⟩
      | ok written =>
          obtain ⟨hkey, hobject, hothers⟩ := MemoryStore.write_eq_ok hwrite
          exact ⟨rfl, written, rfl, .stored hread hkey hobject hothers⟩

end Upload

namespace Pipeline

theorem uploadFile_memory {m : MemoryStore} {path key : String} {w later : World}
    {outcome : Except StorageError Nat} (hstore : w.store = .memory m)
    (hon : (uploadFile path key).on w = (outcome, later)) :
    later.files = w.files ∧ ∃ written, later.store = .memory written ∧
      UploadEffect m w.files path key outcome written := by
  have hrun := Upload.run_memory m w.files path key
  unfold uploadFile at hon
  rw [Action.on_bind_of_ok (Action.on_get w), hstore,
    Action.on_bind_of_ok (Action.on_set _ w), Action.on_bind_of_ok (Action.on_report _ _),
    Action.on_ofExcept, Prod.mk.injEq] at hon
  obtain ⟨houtcome, hlater⟩ := hon
  rw [← houtcome, ← hlater]
  exact hrun

theorem uploadHalf_memory {s : DatasetSettings} {datasets : Datasets} {half : Half}
    {m : MemoryStore} {w later : World} {outcome : Except Failure String}
    (hstore : w.store = .memory m)
    (hon : (uploadHalf s datasets half).on w = (outcome, later)) :
    later.files = w.files ∧ ∃ result written, later.store = .memory written ∧
      UploadEffect m w.files (datasets.file half).path
        (datasetKey s.stem half (s.fileName half)) result written ∧
      outcome = match result with
        | .error e => .error (.during (.uploading half) (.ofCause (.storage e)))
        | .ok _ => .ok (datasetKey s.stem half (s.fileName half)) := by
  unfold uploadHalf at hon
  cases hupload : (uploadFile (datasets.file half).path
      (datasetKey s.stem half (s.fileName half))).on w with
  | mk result between =>
      obtain ⟨hfiles, written, hwritten, heffect⟩ := uploadFile_memory hstore hupload
      simp only [Action.on_bind, Action.on_mapFailure, hupload] at hon
      cases result with
      | error e =>
          simp only [mapError_error, Prod.mk.injEq] at hon
          obtain ⟨rfl, rfl⟩ := hon
          exact ⟨hfiles, _, written, hwritten, heffect, rfl⟩
      | ok size =>
          simp only [mapError_ok, Action.on_pure, Prod.mk.injEq] at hon
          obtain ⟨rfl, rfl⟩ := hon
          exact ⟨hfiles, _, written, hwritten, heffect, rfl⟩

end Pipeline
end ZoneDemand
