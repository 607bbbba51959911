import ZoneDemand.Proofs.Staging.Attempt
import ZoneDemand.Proofs.Staging.Callback
import ZoneDemand.Proofs.Staging.Percent

/-!
# The progress of a staging call

A call tells the progress of one object after another, in the order in which the objects are
listed.  A call that fails has told of the objects before the one at which it failed, and of
that one what its reads have told.  The local tree changes during a call only in the file under
construction, so what is said of a read or of a size is said of one of the trees that the call
sees.
-/

namespace ZoneDemand
namespace Staging

section Objects

variable (store : ObjectStore) (sees : FileTree → Prop) (chunk : Nat)

/-- Reads of an object one after another, each from where the last one ended, that have got to
an offset.  A read may come back short, but not empty. -/
inductive Reads (key : String) (size : Nat) : List Nat → Nat → Prop where
  | none : Reads key size [] 0
  | more {reached : List Nat} {offset : Nat} {tree : FileTree} {bytes : Bytes}
      (hbefore : Reads key size reached offset) (hless : offset < size) (htree : sees tree)
      (hread : store.read tree key offset (min (offset + chunk) size) = .ok bytes)
      (hbytes : bytes ≠ []) :
      Reads key size (reached ++ [offset + bytes.length]) (offset + bytes.length)

/-- An object that has been read to the end of the size that the store tells. -/
structure ReadToEnd (key : String) (o : ObjectProgress) : Prop where
  key_eq : o.key = key
  size_eq : ∃ tree, sees tree ∧ store.size tree key = .ok o.size
  reads : Reads store sees chunk key o.size o.reached o.size
  complete : o.Complete

/-- The read from an offset fails, or comes back empty. -/
inductive Stops (key : String) (size offset : Nat) : TransferFault → Prop where
  | failed {tree : FileTree} {fault : TransferFault} (htree : sees tree)
      (hread : store.read tree key offset (min (offset + chunk) size) =
        .error (.fetch key fault)) :
      Stops key size offset fault
  | endedEarly {tree : FileTree} (htree : sees tree)
      (hread : store.read tree key offset (min (offset + chunk) size) = .ok []) :
      Stops key size offset (.endedEarly offset size)

/-- An object whose reading has stopped before its end. -/
structure ReadInPart (key : String) (o : ObjectProgress) (fault : TransferFault) : Prop where
  key_eq : o.key = key
  size_eq : ∃ tree, sees tree ∧ store.size tree key = .ok o.size
  stopped : ∃ offset < o.size, Reads store sees chunk key o.size o.reached offset ∧
    o.Tracks offset ∧ Stops store sees chunk key o.size offset fault

/-- What the reading of an object tells.  A failure is one of this object. -/
inductive ObjectTold (key : String) : List Progress → Except StorageError Unit → Prop where
  | whole {o : ObjectProgress} (ho : ReadToEnd store sees chunk key o) :
      ObjectTold key o.whole (.ok ())
  | begun {o : ObjectProgress} {fault : TransferFault}
      (ho : ReadInPart store sees chunk key o fault) :
      ObjectTold key o.begun (.error (.fetch key fault))
  | unsized {tree : FileTree} {fault : TransferFault} (htree : sees tree)
      (hsize : store.size tree key = .error (.fetch key fault)) :
      ObjectTold key [] (.error (.fetch key fault))

/-- What the reading of all objects tells. -/
inductive DownloadTold : List String → List Progress → Except StorageError Unit → Prop where
  | all {keys : List String} {told : List ObjectProgress}
      (htold : List.Forall₂ (ReadToEnd store sees chunk) keys told) :
      DownloadTold keys (told.flatMap ObjectProgress.whole) (.ok ())
  | broken {before after : List String} {key : String} {told : List ObjectProgress}
      {progress : List Progress} {e : StorageError}
      (htold : List.Forall₂ (ReadToEnd store sees chunk) before told)
      (hbroken : ObjectTold store sees chunk key progress (.error e)) :
      DownloadTold (before ++ key :: after)
        (told.flatMap ObjectProgress.whole ++ progress) (.error e)

/-- The invariant of the loop over an object: what has been told so far is what `o` has begun,
and the tracker stands where the reads of `o` have got to. -/
structure Reading (key : String) (o : ObjectProgress) (tracker : PercentTracker)
    (offset : Nat) : Prop where
  key_eq : o.key = key
  size_eq : ∃ tree, sees tree ∧ store.size tree key = .ok o.size
  small : 100 * o.size < 2 ^ 64
  le_size : offset ≤ o.size
  reads : Reads store sees chunk key o.size o.reached offset
  tracks : o.Tracks offset
  tracker : tracker.At o.size offset

variable {store sees chunk} {tree : FileTree} {key : String}

theorem add_length_le_of_read {start size : Nat} {bytes : Bytes} (hstart : start ≤ size)
    (hread : store.read tree key start (min (start + chunk) size) = .ok bytes) :
    start + bytes.length ≤ size := by
  obtain ⟨data, -, hbeginning⟩ := ObjectStore.read_eq hread
  have hlength := hbeginning.length_le
  rw [List.length_take] at hlength
  omega

namespace Reading

variable {o : ObjectProgress} {tracker : PercentTracker} {offset : Nat}

theorem started {size : Nat} (htree : sees tree) (hsize : store.size tree key = .ok size)
    (hsmall : 100 * size < 2 ^ 64) :
    Reading store sees chunk key (.started key size) (.ofTotal (.ofNat size)) 0 where
  key_eq := rfl
  size_eq := ⟨tree, htree, hsize⟩
  small := hsmall
  le_size := Nat.zero_le _
  reads := .none
  tracks := ObjectProgress.tracks_started key size
  tracker := PercentTracker.at_ofTotal (by omega)

theorem read (h : Reading store sees chunk key o tracker offset) {bytes : Bytes}
    (hless : offset < o.size) (hbytes : bytes ≠ []) (htree : sees tree)
    (hread : store.read tree key offset (min (offset + chunk) o.size) = .ok bytes) :
    Reading store sees chunk key
      (o.read (offset + bytes.length) (tracker.advance (.ofNat bytes.length)).2)
      (tracker.advance (.ofNat bytes.length)).1 (offset + bytes.length) := by
  have hpos := List.length_pos_iff.mpr hbytes
  have hle := add_length_le_of_read h.le_size hread
  obtain ⟨hnext, hgrown⟩ := h.tracker.advance h.small (by omega) hle
  rw [hgrown]
  exact ⟨h.key_eq, h.size_eq, h.small, hle, .more h.reads hless htree hread hbytes,
    h.tracks.read (by omega) hle, hnext⟩

theorem inPart (h : Reading store sees chunk key o tracker offset) {fault : TransferFault}
    (hless : offset < o.size) (hstops : Stops store sees chunk key o.size offset fault) :
    ReadInPart store sees chunk key o fault :=
  ⟨h.key_eq, h.size_eq, offset, hless, h.reads, h.tracks, hstops⟩

theorem toEnd (h : Reading store sees chunk key o tracker offset) (hdone : ¬offset < o.size) :
    offset = o.size ∧ ReadToEnd store sees chunk key o := by
  obtain rfl : offset = o.size := Nat.le_antisymm h.le_size (Nat.le_of_not_lt hdone)
  exact ⟨rfl, h.key_eq, h.size_eq, h.reads, h.tracks.complete⟩

end Reading

section Trees

variable {see : Bytes → FileTree} {last : Bytes}
  (hsees : ∀ octets, octets <+: last → sees (see octets))
include hsees

/-- The trees seen are those of the octets that have been written by the end. -/
theorem readFrom_told {o : ObjectProgress} {tracker : PercentTracker} {offset : Nat}
    {writer : Writer} (h : Reading store sees chunk key o tracker offset)
    (hlast : (readFrom store see chunk key o.size tracker offset writer).writer.written <+: last) :
    ObjectTold store sees chunk key
      (o.begun ++ progress (readFrom store see chunk key o.size tracker offset writer).trace)
      (readFrom store see chunk key o.size tracker offset writer).outcome := by
  induction hleft : o.size - offset using Nat.strongRecOn
    generalizing o tracker offset writer with
  | ind left ih =>
      have htree : sees (see writer.written) := hsees _ ((readFrom_written writer).trans hlast)
      unfold readFrom at hlast ⊢
      by_cases hless : offset < o.size
      · rw [dif_pos hless] at hlast ⊢
        cases hread : store.read (see writer.written) key offset (min (offset + chunk) o.size) with
        | error e =>
            obtain ⟨fault, rfl⟩ := ObjectStore.read_error hread
            simpa using .begun (h.inPart hless (.failed htree hread))
        | ok bytes =>
            cases bytes with
            | nil => simpa using .begun (h.inPart hless (.endedEarly htree hread))
            | cons octet octets =>
                have hmore := h.read hless (List.cons_ne_nil _ _) htree hread
                simp only [hread] at hlast ⊢
                generalize tracker.advance (UInt64.ofNat (octet :: octets).length) = advanced
                  at hmore hlast ⊢
                obtain ⟨next, percent⟩ := advanced
                have hdecreases : o.size - (offset + (octets.length + 1)) < left := by omega
                have hrest := ih _ hdecreases hmore hlast rfl
                rw [ObjectProgress.begun_read, List.append_assoc, h.key_eq] at hrest
                rw [progress_append]
                cases percent with
                | none => exact hrest
                | some p => exact hrest
      · obtain ⟨rfl, hwhole⟩ := h.toEnd hless
        have htold : ObjectTold store sees chunk key o.whole (.ok ()) := .whole hwhole
        rw [dif_neg hless]
        rw [ObjectProgress.whole, h.key_eq] at htold
        exact htold

omit hsees in
/-- An object whose size the store tells, but of which nothing can be read. -/
theorem readFrom_unreadable {writer : Writer} {size : Nat} (hpos : 0 < size)
    (htree : sees (see writer.written))
    (hnone : ∀ start finish bytes, store.read (see writer.written) key start finish ≠ .ok bytes)
    (tracker : PercentTracker) :
    ∃ fault, readFrom store see chunk key size tracker 0 writer =
        ⟨[], writer, .error (.fetch key fault)⟩ ∧
      Stops store sees chunk key size 0 fault := by
  unfold readFrom
  rw [dif_pos hpos]
  cases hread : store.read (see writer.written) key 0 (min (0 + chunk) size) with
  | error e =>
      obtain ⟨fault, rfl⟩ := ObjectStore.read_error hread
      exact ⟨fault, rfl, .failed htree hread⟩
  | ok bytes => exact absurd hread (hnone _ _ _)

theorem readObject_told {writer : Writer}
    (hsmall : ∀ tree, sees tree → ∀ data, store.object? tree key = some data →
      100 * data.length < 2 ^ 64)
    (hlast : (readObject store see chunk key writer).writer.written <+: last) :
    ObjectTold store sees chunk key (progress (readObject store see chunk key writer).trace)
      (readObject store see chunk key writer).outcome := by
  have htree : sees (see writer.written) := hsees _ ((readObject_written writer).trans hlast)
  unfold readObject at hlast ⊢
  cases hsize : store.size (see writer.written) key with
  | error e =>
      obtain ⟨fault, rfl⟩ := ObjectStore.size_error hsize
      exact .unsized htree hsize
  | ok size =>
      simp only [hsize] at hlast ⊢
      rcases ObjectStore.size_eq hsize with ⟨data, hdata, rfl⟩ | ⟨hpos, hnone⟩
      · exact readFrom_told hsees (.started htree hsize (hsmall _ htree data hdata)) hlast
      · obtain ⟨fault, hread, hstops⟩ :=
          readFrom_unreadable hpos htree hnone (.ofTotal (.ofNat size))
        rw [hread]
        exact .begun (o := .started key size)
          ⟨rfl, ⟨_, htree, hsize⟩, 0, hpos, .none, ObjectProgress.tracks_started key size, hstops⟩

omit hsees in
theorem DownloadTold.cons {keys : List String} {o : ObjectProgress} {progress : List Progress}
    {outcome : Except StorageError Unit} (ho : ReadToEnd store sees chunk key o)
    (h : DownloadTold store sees chunk keys progress outcome) :
    DownloadTold store sees chunk (key :: keys) (o.whole ++ progress) outcome := by
  cases h with
  | all htold => exact .all (.cons ho htold)
  | broken htold hbroken =>
      rw [← List.append_assoc]
      exact .broken (.cons ho htold) hbroken

theorem readAll_told {keys : List String} {writer : Writer}
    (hsmall : ∀ key ∈ keys, ∀ tree, sees tree → ∀ data, store.object? tree key = some data →
      100 * data.length < 2 ^ 64)
    (hlast : (readAll store see chunk keys writer).writer.written <+: last) :
    DownloadTold store sees chunk keys (progress (readAll store see chunk keys writer).trace)
      (readAll store see chunk keys writer).outcome := by
  induction keys generalizing writer with
  | nil => exact .all .nil
  | cons key keys ih =>
      have hfirst (hwritten : (readObject store see chunk key writer).writer.written <+: last) :=
        readObject_told hsees (hsmall key List.mem_cons_self) hwritten
      have hothers := fun other hother => hsmall other (List.mem_cons_of_mem key hother)
      cases houtcome : (readObject store see chunk key writer).outcome with
      | error e =>
          have hstopped : readAll store see chunk (key :: keys) writer =
              readObject store see chunk key writer := by
            simp [readAll, houtcome]
          rw [hstopped] at hlast ⊢
          rw [houtcome] at hfirst ⊢
          exact .broken .nil (hfirst hlast)
      | ok =>
          rw [readAll_of_ok houtcome] at hlast ⊢
          have hread := hfirst ((readAll_written keys _).trans hlast)
          rw [houtcome] at hread
          rw [progress_append]
          generalize progress (readObject store see chunk key writer).trace = told at hread ⊢
          cases hread with
          | whole ho => exact (ih hothers hlast).cons ho

end Trees

/-- What an object would tell if it were read to its end, of a size that the store tells if it
tells any. -/
structure CouldTell (store : ObjectStore) (sees : FileTree → Prop) (key : String)
    (o : ObjectProgress) : Prop where
  key_eq : o.key = key
  size_eq : (∃ tree, sees tree ∧ store.size tree key = .ok o.size) ∨
    ∀ tree, sees tree → ∀ size, store.size tree key ≠ .ok size
  complete : o.Complete

theorem ReadToEnd.couldTell {o : ObjectProgress} (h : ReadToEnd store sees chunk key o) :
    CouldTell store sees key o where
  key_eq := h.key_eq
  size_eq := .inl h.size_eq
  complete := h.complete

theorem exists_couldTell (store : ObjectStore) (sees : FileTree → Prop) (key : String) :
    ∃ o, CouldTell store sees key o := by
  have hstarted (size : Nat) : ∃ o : ObjectProgress, o.key = key ∧ o.size = size ∧ o.Complete := by
    obtain ⟨o, hkey, hsize, hcomplete, -⟩ :=
      (ObjectProgress.tracks_started key size).completion (Nat.zero_le size)
    exact ⟨o, hkey, hsize, hcomplete⟩
  by_cases htold : ∃ tree size, sees tree ∧ store.size tree key = .ok size
  · obtain ⟨tree, size, htree, hsize⟩ := htold
    obtain ⟨o, hkey, hosize, hcomplete⟩ := hstarted size
    exact ⟨o, hkey, .inl ⟨tree, htree, by rw [hosize]; exact hsize⟩, hcomplete⟩
  · obtain ⟨o, hkey, -, hcomplete⟩ := hstarted 0
    refine ⟨o, hkey, .inr ?_, hcomplete⟩
    intro tree htree size hsize
    exact htold ⟨tree, size, htree, hsize⟩

theorem ObjectTold.unfinished {progress : List Progress} {e : StorageError}
    (h : ObjectTold store sees chunk key progress (.error e)) (other : String) (bytes : Nat) :
    Progress.finished other bytes ∉ progress := by
  cases h with
  | begun => simp [ObjectProgress.begun]
  | unsized => exact List.not_mem_nil

theorem ObjectTold.isPrefix {progress : List Progress} {outcome : Except StorageError Unit}
    (h : ObjectTold store sees chunk key progress outcome) :
    ∃ o, CouldTell store sees key o ∧ progress <+: o.whole := by
  cases h with
  | whole ho => exact ⟨_, ho.couldTell, List.prefix_refl _⟩
  | begun ho =>
      obtain ⟨offset, hless, -, htracks, -⟩ := ho.stopped
      obtain ⟨o, hkey, hsize, hcomplete, hbeginning⟩ := htracks.completion (Nat.le_of_lt hless)
      refine ⟨o, ⟨hkey.trans ho.key_eq, .inl ?_, hcomplete⟩, hbeginning⟩
      rw [hsize]
      exact ho.size_eq
  | unsized =>
      obtain ⟨o, ho⟩ := exists_couldTell store sees key
      exact ⟨o, ho, List.nil_prefix⟩

/-- A beginning of what complete objects under the keys would tell one after another. -/
def Begins (store : ObjectStore) (sees : FileTree → Prop) (keys : List String)
    (progress : List Progress) : Prop :=
  ∃ complete, List.Forall₂ (CouldTell store sees) keys complete ∧
    progress <+: complete.flatMap ObjectProgress.whole

theorem begins_nil (store : ObjectStore) (sees : FileTree → Prop) (keys : List String) :
    Begins store sees keys [] := by
  induction keys with
  | nil => exact ⟨[], .nil, List.prefix_refl _⟩
  | cons key keys ih =>
      obtain ⟨o, ho⟩ := exists_couldTell store sees key
      obtain ⟨complete, hcomplete, -⟩ := ih
      exact ⟨o :: complete, .cons ho hcomplete, List.nil_prefix⟩

theorem begins_of_readToEnd {keys : List String} {told : List ObjectProgress}
    (htold : List.Forall₂ (ReadToEnd store sees chunk) keys told) :
    Begins store sees keys (told.flatMap ObjectProgress.whole) :=
  ⟨told, htold.imp fun _ _ ho => ho.couldTell, List.prefix_refl _⟩

theorem begins_of_broken {before after : List String} {told : List ObjectProgress}
    {progress : List Progress} {outcome : Except StorageError Unit}
    (htold : List.Forall₂ (ReadToEnd store sees chunk) before told)
    (hbroken : ObjectTold store sees chunk key progress outcome) :
    Begins store sees (before ++ key :: after)
      (told.flatMap ObjectProgress.whole ++ progress) := by
  obtain ⟨o, ho, hbeginning⟩ := hbroken.isPrefix
  obtain ⟨others, hothers, -⟩ := begins_nil store sees after
  refine ⟨told ++ o :: others, ?_, ?_⟩
  · exact List.rel_append (htold.imp fun _ _ ho => ho.couldTell) (.cons ho hothers)
  · rw [List.flatMap_append, List.flatMap_cons]
    exact (List.prefix_append_right_inj _).mpr (hbeginning.trans (List.prefix_append _ _))

end Objects
end Staging

namespace Attempt

/-- The trees that the reading of the listed objects sees: that in which room has been made,
with what has reached the file under construction by then. -/
def Sees (a : Attempt) (path : String) (keys : List String) (tree : FileTree) : Prop :=
  ∃ octets, octets <+: (a.download path keys).writer.written ∧
    tree = (a.made path).holding (Staging.temporaryPath path) octets

def progress (a : Attempt) (path : String) : List Progress :=
  Staging.progress (a.staging path).trace

/-- The keys listed, in the order of their octets. -/
structure Lists (a : Attempt) (keys : List String) : Prop where
  listed : a.store.list a.tree a.stem = .ok keys
  sorted : keys.Pairwise fun x y => Utf8.encode x ≤ Utf8.encode y

/-- Every object that is listed is smaller than `2 ^ 64 / 100` octets. -/
def Small (a : Attempt) (path : String) : Prop :=
  ∀ keys, a.Lists keys → ∀ key ∈ keys, ∀ tree, a.Sees path keys tree →
    ∀ data, a.store.object? tree key = some data → 100 * data.length < 2 ^ 64

/-- What a call tells, whatever becomes of it. -/
inductive Tells (a : Attempt) (path : String) :
    Except StorageError StagingOutcome → List Progress → Prop where
  | skipped (hexists : a.tree.exists? path = true) : Tells a path (.ok .skipped) []
  | downloaded {keys : List String} {told : List ObjectProgress} {bytes : Nat}
      (hkeys : a.Lists keys)
      (htold : List.Forall₂ (Staging.ReadToEnd a.store (a.Sees path keys) (max a.chunk 1))
        keys told) :
      Tells a path (.ok (.downloaded keys.length bytes)) (told.flatMap ObjectProgress.whole)
  | unlisted {e : StorageError} (hlist : a.store.list a.tree a.stem = .error e) :
      Tells a path (.error e) []
  | nothingListed (hkeys : a.Lists []) : Tells a path (.error (.fetch a.stem .nothingListed)) []
  | noRoom {keys : List String} {e : PathFault} (hkeys : a.Lists keys)
      (hprepare : (a.tree.prepare (Staging.temporaryPath path)).2 = .error e) :
      Tells a path (.error (.localFile e.path e.fault)) []
  /-- The objects before the one that fails have been told of to their end. -/
  | broken {before after : List String} {key : String} {told : List ObjectProgress}
      {progress : List Progress} {e : StorageError} (hkeys : a.Lists (before ++ key :: after))
      (htold : List.Forall₂ (Staging.ReadToEnd a.store
        (a.Sees path (before ++ key :: after)) (max a.chunk 1)) before told)
      (hbroken : Staging.ObjectTold a.store
        (a.Sees path (before ++ key :: after)) (max a.chunk 1) key progress (.error e))
      (hunfinished : ∀ other bytes, Progress.finished other bytes ∉ progress) :
      Tells a path (.error e) (told.flatMap ObjectProgress.whole ++ progress)
  /-- All objects have been read, but the file could not be put in its place. -/
  | unplaced {keys : List String} {told : List ObjectProgress} {e : PathFault}
      (hkeys : a.Lists keys)
      (htold : List.Forall₂ (Staging.ReadToEnd a.store (a.Sees path keys) (max a.chunk 1))
        keys told)
      (hcomplete : ((a.made path).complete (Staging.temporaryPath path)
        (a.download path keys).writer.content path).2 = .error e) :
      Tells a path (.error (.localFile e.path e.fault)) (told.flatMap ObjectProgress.whole)

variable {a : Attempt} {path : String}

theorem download_told (hsmall : a.Small path) {keys : List String} (hkeys : a.Lists keys) :
    Staging.DownloadTold a.store (a.Sees path keys) (max a.chunk 1) keys
      (Staging.progress (a.download path keys).trace) (a.download path keys).outcome :=
  Staging.readAll_told (fun octets hoctets => ⟨octets, hoctets, rfl⟩) (hsmall keys hkeys)
    (List.prefix_refl _)

theorem tells_ofKeys (hsmall : a.Small path) {keys : List String} (hkeys : a.Lists keys) :
    a.Tells path (Staging.ofKeys a.store a.tree path a.chunk keys).outcome
      (Staging.progress (Staging.ofKeys a.store a.tree path a.chunk keys).trace) := by
  have htold := download_told hsmall hkeys
  have hends := a.ends path keys
  generalize Staging.ofKeys a.store a.tree path a.chunk keys = staging at hends ⊢
  cases hends with
  | noRoom hprepare => exact .noRoom hkeys (by rw [hprepare])
  | broken _ hdownload =>
      rw [hdownload] at htold
      dsimp only
      generalize Staging.progress (a.download path keys).trace = told at htold ⊢
      cases htold with
      | broken htold hbroken => exact .broken hkeys htold hbroken hbroken.unfinished
  | unplaced _ hdownload hcomplete =>
      rw [hdownload] at htold
      dsimp only
      generalize Staging.progress (a.download path keys).trace = told at htold ⊢
      cases htold with
      | all htold => exact .unplaced hkeys htold (by rw [hcomplete])
  | placed hdownload _ =>
      rw [hdownload] at htold
      dsimp only
      rw [Staging.progress_append, Staging.progress_staged, Staging.progress_nil, List.append_nil]
      generalize Staging.progress (a.download path keys).trace = told at htold ⊢
      cases htold with
      | all htold => exact .downloaded hkeys htold

theorem tells (hsmall : a.Small path) :
    a.Tells path (a.staging path).outcome (a.progress path) := by
  unfold progress staging Staging.run
  split
  · rename_i hexists
    exact .skipped hexists
  · cases hlist : a.store.list a.tree a.stem with
    | error e => exact .unlisted hlist
    | ok keys =>
        have hkeys : a.Lists keys := ⟨hlist, ObjectStore.sorted_list hlist⟩
        cases keys with
        | nil => exact .nothingListed hkeys
        | cons key keys =>
            dsimp only
            rw [Staging.progress_listed]
            exact tells_ofKeys hsmall hkeys

theorem Lists.unique {keys others : List String} (hkeys : a.Lists keys)
    (hothers : a.Lists others) : keys = others :=
  Except.ok.inj (hkeys.listed.symm.trans hothers.listed)

theorem Tells.begins {outcome : Except StorageError StagingOutcome} {told : List Progress}
    (h : a.Tells path outcome told) {keys : List String} (hkeys : a.Lists keys) :
    Staging.Begins a.store (a.Sees path keys) keys told := by
  cases h with
  | skipped => exact Staging.begins_nil _ _ _
  | unlisted => exact Staging.begins_nil _ _ _
  | nothingListed => exact Staging.begins_nil _ _ _
  | noRoom => exact Staging.begins_nil _ _ _
  | downloaded hlisted htold =>
      rw [hkeys.unique hlisted]
      exact Staging.begins_of_readToEnd htold
  | unplaced hlisted htold =>
      rw [hkeys.unique hlisted]
      exact Staging.begins_of_readToEnd htold
  | broken hlisted htold hbroken =>
      rw [hkeys.unique hlisted]
      exact Staging.begins_of_broken htold hbroken

/-- A call that downloads tells all of the objects listed, one after another and each to its
end.  A call that fails tells a beginning of this, and does not tell that the object at which
it failed is finished.  A callback is told just that, and nothing else depends on it. -/
theorem staging_tells (a : Attempt) (path : String) (hsmall : a.Small path) :
    a.Tells path (a.staging path).outcome (a.progress path) ∧
      (∀ keys, a.Lists keys →
        Staging.Begins a.store (a.Sees path keys) keys (a.progress path)) ∧
      ∀ {σ : Type} (callback? : Option (ProgressCallback σ)),
        Staging.runWith callback? a.store a.tree a.stem path a.chunk =
          (do
            (a.progress path).forM (Staging.notify callback?)
            pure ((a.staging path).files, (a.staging path).outcome)) :=
  ⟨tells hsmall, fun _ hkeys => (tells hsmall).begins hkeys,
    fun callback? => Staging.runWith_eq callback? ..⟩

end Attempt

def MemoryStore.brokenOff : MemoryStore where
  objects := [("b", [0x31, 0x32, 0x33]), ("a", [0x31, 0x32, 0x33])]
  outages := []
  cuts := [("b", 1)]

/-- Two octets are read at a time, and `b` breaks off after its first octet. -/
def Attempt.brokenOff : Attempt := ⟨.memory .brokenOff, .bare, "", 2⟩

namespace Attempt

def brokenOffProgress : List Progress :=
  [.started "a" 3, .percent "a" 66, .percent "a" 100, .finished "a" 3, .started "b" 3,
    .percent "b" 33]

theorem brokenOff_small : brokenOff.Small "day.csv" := by
  intro keys _ key _ tree _ data hdata
  change MemoryStore.found? .brokenOff (Key.normalize key) = some data at hdata
  unfold MemoryStore.found? at hdata
  split at hdata
  · cases hdata
    decide
  · have hall : ∀ object ∈ MemoryStore.brokenOff.objects, 100 * object.2.length < 2 ^ 64 := by
      decide
    obtain ⟨before, after, hobjects, -⟩ := List.lookup_eq_some_iff.mp hdata
    exact hall (Key.normalize key, data) (by rw [hobjects]; simp)

theorem brokenOff_staging :
    brokenOff.progress "day.csv" = brokenOffProgress ∧
      (brokenOff.staging "day.csv").outcome = .error (.fetch "b" (.endedEarly 1 3)) := by
  have hkeys : MemoryStore.brokenOff.list (Key.normalize "") = .ok ["b", "a"] := by
    decide +kernel
  have hlist : brokenOff.store.list .bare "" = .ok ["a", "b"] := by
    unfold brokenOff ObjectStore.list
    dsimp only
    rw [hkeys]
    simp [List.mergeSort, List.MergeSort.Internal.splitInTwo]
  unfold progress
  rw [staging_of_listed (a := brokenOff) (by decide +kernel) hlist]
  decide +kernel

theorem brokenOff_tells :
    brokenOff.Small "day.csv" ∧
      brokenOff.Tells "day.csv" (.error (.fetch "b" (.endedEarly 1 3))) brokenOffProgress ∧
      ((Staging.runWith (some fun p => modify (· ++ [p])) brokenOff.store brokenOff.tree
        brokenOff.stem "day.csv" brokenOff.chunk).run []).2 = brokenOffProgress := by
  obtain ⟨hprogress, houtcome⟩ := brokenOff_staging
  obtain ⟨htells, -, hcallback⟩ := staging_tells brokenOff "day.csv" brokenOff_small
  rw [hprogress, houtcome] at htells
  refine ⟨brokenOff_small, htells, ?_⟩
  rw [hcallback, hprogress]
  rfl

end Attempt
end ZoneDemand
