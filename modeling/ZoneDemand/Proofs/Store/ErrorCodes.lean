import ZoneDemand.Proofs.Staging.Progress
import ZoneDemand.Upload

/-!
# What the code of a storage error tells

Staging fails with the code of local files exactly if one of its steps on the local files has
failed, and with the code of fetching if a call on the store has.  An upload looks whether it
replaces an object before it writes.  Where that look fails, the upload fails as a fetch, and
nothing is written; wherever it does not, the code tells whether reading the file or writing
the object has failed.
-/

namespace ZoneDemand

namespace ObjectStore

variable {store : ObjectStore} {tree : FileTree} {key : String} {e : StorageError}

theorem list_error {stem : String} (hlist : store.list tree stem = .error e) :
    ∃ fault, e = .fetch stem fault := by
  unfold list at hlist
  dsimp only at hlist
  split at hlist
  · contradiction
  · rw [Except.error.injEq] at hlist
    exact ⟨_, hlist.symm⟩

theorem write_error {data : Bytes} (hwrite : (store.write tree key data).2.2 = .error e) :
    ∃ fault, e = .upload key fault := by
  unfold write at hwrite
  cases store <;> dsimp only at hwrite <;> split at hwrite
  all_goals first
    | contradiction
    | exact ⟨_, (Except.error.inj hwrite).symm⟩

/-- The store does not tell whether there is an object under the key. -/
def StatFails (store : ObjectStore) (tree : FileTree) (key : String) : Prop :=
  ∃ fault, store.statSize tree key = .error fault ∧ fault ≠ .notFound

theorem contains_error (hcontains : store.contains tree key = .error e) :
    store.StatFails tree key ∧ ∃ fault, e = .fetch key fault := by
  unfold contains at hcontains
  split at hcontains
  · contradiction
  · contradiction
  · rename_i fault hmissing hstat
    rw [Except.error.injEq] at hcontains
    exact ⟨⟨fault, hstat, fun h => hmissing (h ▸ rfl)⟩, _, hcontains.symm⟩

theorem StatFails.contains (h : store.StatFails tree key) :
    ∃ fault, store.contains tree key = .error (.fetch key fault) := by
  obtain ⟨fault, hstat, hne⟩ := h
  refine ⟨.store fault, ?_⟩
  unfold ObjectStore.contains
  rw [hstat]
  cases fault with
  | notFound => contradiction
  | _ => rfl

end ObjectStore

/-! ## Staging -/

namespace Staging

section Objects

variable {store : ObjectStore} {see : Bytes → FileTree} {chunk : Nat} {e : StorageError}

theorem readFrom_error {key : String} {size offset : Nat} {tracker : PercentTracker}
    {writer : Writer}
    (herror : (readFrom store see chunk key size tracker offset writer).outcome = .error e) :
    ∃ fault, e = .fetch key fault := by
  induction hleft : size - offset using Nat.strongRecOn generalizing tracker offset writer with
  | ind left ih =>
      unfold readFrom at herror
      split at herror
      · split at herror
        · rename_i fault hread
          obtain ⟨cause, rfl⟩ := ObjectStore.read_error hread
          exact ⟨cause, (Except.error.inj herror).symm⟩
        · exact ⟨_, (Except.error.inj herror).symm⟩
        · exact ih _ (by omega) herror rfl
      · contradiction

theorem readObject_error {key : String} {writer : Writer}
    (herror : (readObject store see chunk key writer).outcome = .error e) :
    ∃ fault, e = .fetch key fault := by
  unfold readObject at herror
  split at herror
  · rename_i hsize
    obtain ⟨fault, rfl⟩ := ObjectStore.size_error hsize
    exact ⟨fault, (Except.error.inj herror).symm⟩
  · exact readFrom_error herror

theorem readAll_error {keys : List String} {writer : Writer}
    (herror : (readAll store see chunk keys writer).outcome = .error e) :
    ∃ key ∈ keys, ∃ fault, e = .fetch key fault := by
  induction keys generalizing writer with
  | nil => contradiction
  | cons key keys ih =>
      unfold readAll at herror
      dsimp only at herror
      split at herror
      · obtain ⟨fault, rfl⟩ := readObject_error herror
        exact ⟨key, List.mem_cons_self, fault, rfl⟩
      · obtain ⟨other, hother, hfault⟩ := ih herror
        exact ⟨other, List.mem_cons_of_mem _ hother, hfault⟩

end Objects
end Staging

theorem FileTree.remove_of_prepare {tree made : FileTree} {path : String}
    (hprepare : tree.prepare path = (made, .ok ())) :
    ∃ removed, made.remove path = .ok removed := by
  unfold prepare at hprepare
  split at hprepare
  · exact nomatch (Prod.mk.inj hprepare).2
  · split at hprepare
    · rename_i created hcreated
      obtain rfl := (Prod.mk.inj hprepare).1
      have hplaces := (write_differsAtPath hcreated).place?_eq path
      obtain ⟨location, hplace, -, hset⟩ := write_eq_ok_iff.mp hcreated
      have hnode : created.node? location = some (.file []) := by
        rw [hset, node?_set_self _ _ (ne_nil_of_place? hplace)]
      exact ⟨_, remove_eq_ok_iff.mpr ⟨location, [], hplaces.trans hplace, hnode, rfl⟩⟩
    · exact nomatch (Prod.mk.inj hprepare).2

namespace Attempt

/-- The call finds no destination, and something to download. -/
structure Starts (a : Attempt) (path : String) (keys : List String) : Prop where
  absent : a.tree.exists? path = false
  listed : a.store.list a.tree a.stem = .ok keys
  ne_nil : keys ≠ []

/-- A step of the call on the local files fails: making room for the file under construction,
giving it its content and its name, or removing it when the objects could not be read. -/
inductive LocalFails (a : Attempt) (path : String) : Prop where
  | making {keys : List String} {e : PathFault} (hstarts : a.Starts path keys)
      (hprepare : a.tree.prepare (Staging.temporaryPath path) = (a.made path, .error e))
  | placing {keys : List String} {e : PathFault} (hstarts : a.Starts path keys)
      (hprepare : a.tree.prepare (Staging.temporaryPath path) = (a.made path, .ok ()))
      (hdownload : (a.download path keys).outcome = .ok ())
      (hcomplete : ((a.made path).complete (Staging.temporaryPath path)
        (a.download path keys).writer.content path).2 = .error e)
  | removing {keys : List String} {e : StorageError} {fault : FileFault}
      (hstarts : a.Starts path keys)
      (hprepare : a.tree.prepare (Staging.temporaryPath path) = (a.made path, .ok ()))
      (hdownload : (a.download path keys).outcome = .error e)
      (hremove : (a.made path).remove (Staging.temporaryPath path) = .error fault)

variable {a : Attempt} {path : String} {e : StorageError}

theorem Starts.unique {keys others : List String} (hkeys : a.Starts path keys)
    (hothers : a.Starts path others) : keys = others :=
  Except.ok.inj (hkeys.listed.symm.trans hothers.listed)

theorem LocalFails.starts (h : a.LocalFails path) : ∃ keys, a.Starts path keys := by
  cases h with
  | making hstarts => exact ⟨_, hstarts⟩
  | placing hstarts => exact ⟨_, hstarts⟩
  | removing hstarts => exact ⟨_, hstarts⟩

/-- Where the objects cannot be read, room has been made, and it can be cleared again. -/
theorem not_localFails_of_download {keys : List String} (hstarts : a.Starts path keys)
    (hprepare : a.tree.prepare (Staging.temporaryPath path) = (a.made path, .ok ()))
    (hdownload : (a.download path keys).outcome = .error e) : ¬a.LocalFails path := by
  intro h
  cases h with
  | making _ hother =>
      rw [hprepare] at hother
      exact nomatch (Prod.mk.inj hother).2
  | placing hother _ hread =>
      rw [hother.unique hstarts, hdownload] at hread
      contradiction
  | removing _ _ _ hremove =>
      obtain ⟨removed, hremoved⟩ := FileTree.remove_of_prepare hprepare
      rw [hremoved] at hremove
      contradiction

theorem code_of_ofKeys {keys : List String} (hstarts : a.Starts path keys)
    (herror : (Staging.ofKeys a.store a.tree path a.chunk keys).outcome = .error e) :
    a.LocalFails path ∧ e.code = "E004" ∨ ¬a.LocalFails path ∧ e.code = "E002" := by
  have hends := a.ends path keys
  generalize Staging.ofKeys a.store a.tree path a.chunk keys = staging at hends herror
  cases hends with
  | noRoom hprepare =>
      left
      refine ⟨.making hstarts hprepare, ?_⟩
      rw [← Except.error.inj herror]
      rfl
  | broken hprepare hdownload =>
      right
      refine ⟨not_localFails_of_download hstarts hprepare hdownload, ?_⟩
      obtain ⟨key, -, fault, rfl⟩ := Staging.readAll_error hdownload
      rw [← Except.error.inj herror]
      rfl
  | unplaced hprepare hdownload hcomplete =>
      left
      refine ⟨.placing hstarts hprepare hdownload (by rw [hcomplete]), ?_⟩
      rw [← Except.error.inj herror]
      rfl
  | placed => contradiction

/-- A staging call fails with the code of local files exactly if one of its steps on the local
files has failed, and with that of fetching otherwise. -/
theorem code_of_staging (herror : (a.staging path).outcome = .error e) :
    a.LocalFails path ∧ e.code = "E004" ∨ ¬a.LocalFails path ∧ e.code = "E002" := by
  unfold staging Staging.run at herror
  split at herror
  · contradiction
  rename_i hexists
  have habsent : a.tree.exists? path = false := by simpa using hexists
  split at herror
  · rename_i cause hlist
    right
    obtain ⟨fault, rfl⟩ := ObjectStore.list_error hlist
    refine ⟨fun h => ?_, by rw [← Except.error.inj herror]; rfl⟩
    obtain ⟨keys, hstarts⟩ := h.starts
    exact nomatch hlist.symm.trans hstarts.listed
  · rename_i hlist
    right
    refine ⟨fun h => ?_, by rw [← Except.error.inj herror]; rfl⟩
    obtain ⟨keys, hstarts⟩ := h.starts
    exact hstarts.ne_nil (Except.ok.inj (hlist.symm.trans hstarts.listed)).symm
  · rename_i key keys hlist
    exact code_of_ofKeys ⟨habsent, hlist, List.cons_ne_nil _ _⟩ herror

end Attempt

/-! ## Uploading -/

namespace Upload

/-- An upload fails only where the file cannot be read or the object cannot be written, each
with a code of its own, and answers the size of the file otherwise. -/
structure Labelled (store : ObjectStore) (tree : FileTree) (path key : String) : Prop where
  unread : ∀ fault, tree.read path = .error fault →
    ∃ e, (run store tree path key).outcome = .error e ∧ e.code = "E004"
  unwritten : ∀ data cause, tree.read path = .ok data →
    (store.write tree key data).2.2 = .error cause →
      ∃ e, (run store tree path key).outcome = .error e ∧ e.code = "E003"
  stored : ∀ data, tree.read path = .ok data → (store.write tree key data).2.2 = .ok () →
    (run store tree path key).outcome = .ok data.length

variable {store : ObjectStore} {tree : FileTree} {path key : String}

theorem run_of_statFails {data : Bytes} (hread : tree.read path = .ok data)
    (hstat : store.StatFails tree key) :
    ∃ e, run store tree path key = ⟨store, tree, [], .error e⟩ ∧ e.code = "E002" := by
  obtain ⟨fault, hcontains⟩ := hstat.contains
  refine ⟨.fetch key fault, ?_, rfl⟩
  simp only [run, hread, hcontains]

theorem outcome_of_contains {data : Bytes} {replaces : Bool} (hread : tree.read path = .ok data)
    (hcontains : store.contains tree key = .ok replaces) :
    (run store tree path key).outcome =
      (store.write tree key data).2.2.map fun _ => data.length := by
  unfold run
  simp only [hread, hcontains]
  rcases store.write tree key data with ⟨written, files, e | _⟩ <;> rfl

theorem labelled_of_contains
    (hcontains : ∀ data, tree.read path = .ok data → ¬store.StatFails tree key) :
    Labelled store tree path key := by
  have houtcome : ∀ data, tree.read path = .ok data → (run store tree path key).outcome =
      (store.write tree key data).2.2.map fun _ => data.length := by
    intro data hread
    cases hanswer : store.contains tree key with
    | error e => exact absurd (ObjectStore.contains_error hanswer).1 (hcontains data hread)
    | ok replaces => exact outcome_of_contains hread hanswer
  constructor
  · intro fault hread
    refine ⟨.localFile path fault, ?_, rfl⟩
    simp only [run, hread]
  · intro data cause hread hwrite
    obtain ⟨fault, rfl⟩ := ObjectStore.write_error hwrite
    exact ⟨.upload key fault, by rw [houtcome data hread, hwrite]; rfl, rfl⟩
  · intro data hread hwrite
    rw [houtcome data hread, hwrite]
    rfl

theorem labelled_iff :
    Labelled store tree path key ↔
      ∀ data, tree.read path = .ok data → ¬store.StatFails tree key := by
  refine ⟨fun h data hread hstat => ?_, labelled_of_contains⟩
  obtain ⟨e, hrun, hcode⟩ := run_of_statFails hread hstat
  cases hwrite : (store.write tree key data).2.2 with
  | error cause =>
      obtain ⟨other, hother, hotherCode⟩ := h.unwritten data cause hread hwrite
      rw [hrun, Except.error.injEq] at hother
      rw [hother, hotherCode] at hcode
      contradiction
  | ok =>
      have hstored := h.stored data hread hwrite
      rw [hrun] at hstored
      contradiction

end Upload

/-- A staging call that fails tells by its code whether a step on the local files has failed.
An upload does so if and only if the store tells, once the file has been read, whether there is
an object under the key; where it does not, the upload fails with the code of fetching and
leaves the store and the files as they are. -/
theorem StorageError.codes (a : Attempt) (destination : String) (store : ObjectStore)
    (tree : FileTree) (path key : String) :
    (∀ e, (a.staging destination).outcome = .error e →
      a.LocalFails destination ∧ e.code = "E004" ∨
        ¬a.LocalFails destination ∧ e.code = "E002") ∧
    (Upload.Labelled store tree path key ↔
      ∀ data, tree.read path = .ok data → ¬store.StatFails tree key) ∧
    ∀ data, tree.read path = .ok data → store.StatFails tree key →
      ∃ e, Upload.run store tree path key = ⟨store, tree, [], .error e⟩ ∧ e.code = "E002" :=
  ⟨fun _ => Attempt.code_of_staging, Upload.labelled_iff,
    fun _ => Upload.run_of_statFails⟩

def dayTree : FileTree :=
  { FileTree.bare with
    entries := [(["work"], .directory), (["work", "day.json"], .file [0x7b, 0x7d])] }

/-- A store that writes what it does not tell of. -/
def MemoryStore.untold : MemoryStore :=
  ⟨[], [⟨.stat, "train/day.json", .permissionDenied⟩], []⟩

/-- The object that breaks off is no failure of the local files, and a store that misses an
object tells so. -/
theorem StorageError.codes_brokenOff :
    ¬Attempt.brokenOff.LocalFails "day.csv" ∧
      Upload.Labelled (.memory .empty) dayTree "day.json" "train/day.json" := by
  have hstat : (ObjectStore.memory .empty).statSize dayTree "train/day.json" =
      .error .notFound := by decide +kernel
  obtain ⟨hcodes, hlabelled, -⟩ := codes Attempt.brokenOff "day.csv" (.memory .empty) dayTree
    "day.json" "train/day.json"
  constructor
  · rcases hcodes _ Attempt.brokenOff_staging.2 with ⟨-, hcode⟩ | ⟨hlocal, -⟩
    · exact absurd hcode (by decide)
    · exact hlocal
  · refine hlabelled.mpr fun data _ hfails => ?_
    obtain ⟨fault, hfault, hne⟩ := hfails
    rw [hstat, Except.error.injEq] at hfault
    exact hne hfault.symm

/-- The file can be read and the object written, and yet the upload fails as a fetch. -/
theorem Upload.untold_outcome :
    dayTree.read "day.json" = .ok [0x7b, 0x7d] ∧
      ((ObjectStore.memory .untold).write dayTree "train/day.json" [0x7b, 0x7d]).2.2 = .ok () ∧
      (run (.memory .untold) dayTree "day.json" "train/day.json").outcome =
        .error (.fetch "train/day.json" (.store .permissionDenied)) ∧
      (StorageError.fetch "train/day.json" (.store .permissionDenied)).code = "E002" := by
  refine ⟨?_, ?_, ?_, rfl⟩ <;> decide +kernel

end ZoneDemand
