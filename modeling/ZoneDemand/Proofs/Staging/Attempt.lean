import ZoneDemand.Proofs.FileTree.Replacement
import ZoneDemand.Proofs.Staging.Download

/-!
# A single staging call

A call finds the destination there and skips, fails and leaves it free, or downloads all
that the store lists.  What carries this is that a call touches only the directories above
the file under construction, that file, and at the very end the destination.
-/

namespace ZoneDemand

/-- A call that stages the objects of a store under a prefix, on a local tree. -/
structure Attempt where
  store : ObjectStore
  tree : FileTree
  stem : String
  chunk : Nat

/-- What a call stages under a key: the object that the tree has where room has been made for
the file, or, if the key is that of the file under construction, the beginning of the staged
file that is there when it is read. -/
def Staging.Stages (store : ObjectStore) (made : FileTree) (path : String) (staged : Bytes)
    (key : String) (data : Bytes) : Prop :=
  store.object? made key = some data ∨
    store.Names made (temporaryPath path) key ∧ data <+: staged

theorem Staging.Stages.object? {store : ObjectStore} {made : FileTree} {path key : String}
    {staged data : Bytes} (h : Stages store made path staged key data)
    (hother : ¬store.Names made (temporaryPath path) key) : store.object? made key = some data :=
  h.resolve_right fun hnames => hother hnames.1

namespace Attempt

/-- The tree in which room has been made for the file. -/
def made (a : Attempt) (path : String) : FileTree :=
  (a.tree.prepare (Staging.temporaryPath path)).1

/-- The reading of objects into the file under construction. -/
def download (a : Attempt) (path : String) (keys : List String) : Download :=
  Staging.readAll a.store ((a.made path).holding (Staging.temporaryPath path)) (max a.chunk 1)
    keys .empty

def staging (a : Attempt) (path : String) : Staging :=
  Staging.run a.store a.tree a.stem path a.chunk

/-- The call fails, and leaves neither a destination nor, if anything was listed, a file
under construction. -/
structure Fails (a : Attempt) (path : String) : Prop where
  error : ∃ e, (a.staging path).outcome = .error e
  absent : (a.staging path).files.exists? path = false
  noPart : ∀ keys, a.store.list a.tree a.stem = .ok keys → keys ≠ [] →
    ∀ content, (a.staging path).files.read (Staging.temporaryPath path) ≠ .ok content

/-- The call finds the destination there and changes nothing. -/
structure Skips (a : Attempt) (path : String) : Prop where
  outcome : (a.staging path).outcome = .ok .skipped
  unchanged : (a.staging path).files = a.tree

/-- The call stages the listed objects, complete and in the order of the octets of their
keys. -/
structure Downloads (a : Attempt) (path : String) (keys : List String) (objects : List Bytes) :
    Prop where
  listed : a.store.list a.tree a.stem = .ok keys
  sorted : keys.Pairwise fun x y => Utf8.encode x ≤ Utf8.encode y
  complete : List.Forall₂ (Staging.Stages a.store (a.made path) path objects.flatten) keys objects
  outcome : (a.staging path).outcome = .ok (.downloaded keys.length objects.flatten.length)
  staged : (a.staging path).files.read path = .ok objects.flatten

end Attempt

namespace FileTree

/-- Nothing is at the path, not even once the directories above the file under
construction have been made. -/
def Free (tree : FileTree) (path : String) : Prop :=
  (tree.makeAncestors (Staging.temporaryPath path)).1.exists? path = false

instance (tree : FileTree) (path : String) : Decidable (tree.Free path) :=
  inferInstanceAs (Decidable (_ = false))

theorem Free.absent {tree : FileTree} {path : String} (hfree : Free tree path) :
    tree.exists? path = false := by
  rw [← Bool.not_eq_true]
  intro hexists
  have hlater := (extends_makeAncestors tree (Staging.temporaryPath path)).exists? hexists
  rw [hfree] at hlater
  contradiction

theorem free_of_hasAncestors {tree : FileTree} {path : String}
    (hancestors : HasAncestors tree (Staging.temporaryPath path))
    (habsent : tree.exists? path = false) : Free tree path := by
  unfold Free
  rw [makeAncestors_of_hasAncestors hancestors]
  exact habsent

section Construction

variable {tree later : FileTree} {path name : String}
  (hname : Path.fileName? path = some name)
  (hlater : DiffersAtPath (Staging.temporaryPath path)
    (tree.makeAncestors (Staging.temporaryPath path)).1 later)
include hname hlater

theorem exists?_of_construction :
    later.exists? path = (tree.makeAncestors (Staging.temporaryPath path)).1.exists? path :=
  hlater.exists?_eq fun _ hplace =>
    place?_ne_of_sibling hname (by decide) (by decide) hplace

theorem Free.of_construction (hfree : Free tree path) : Free later path := by
  have habsent := exists?_of_construction hname hlater
  rw [hfree] at habsent
  rcases hlater with rfl | ⟨location, hplace, hdiffers⟩
  · unfold Free
    rw [makeAncestors_idempotent]
    exact hfree
  · exact free_of_hasAncestors
      ((hasAncestors_of_place? hplace).of_keepsDirectories hdiffers.keepsDirectories) habsent

end Construction

end FileTree

namespace Attempt

/-- How a call ends that has listed keys. -/
inductive Ends (a : Attempt) (path : String) (keys : List String) : Staging → Prop where
  | noRoom {e : PathFault}
      (hprepare : a.tree.prepare (Staging.temporaryPath path) = (a.made path, .error e)) :
      Ends a path keys
        ⟨(a.made path).discard (Staging.temporaryPath path), [], .error (.localFile e.path e.fault)⟩
  | broken {e : StorageError}
      (hprepare : a.tree.prepare (Staging.temporaryPath path) = (a.made path, .ok ()))
      (hdownload : (a.download path keys).outcome = .error e) :
      Ends a path keys
        ⟨(a.made path).discard (Staging.temporaryPath path), (a.download path keys).trace, .error e⟩
  | unplaced {written : FileTree} {e : PathFault}
      (hprepare : a.tree.prepare (Staging.temporaryPath path) = (a.made path, .ok ()))
      (hdownload : (a.download path keys).outcome = .ok ())
      (hcomplete : (a.made path).complete (Staging.temporaryPath path)
        (a.download path keys).writer.content path = (written, .error e)) :
      Ends a path keys
        ⟨written.discard (Staging.temporaryPath path), (a.download path keys).trace,
          .error (.localFile e.path e.fault)⟩
  | placed {written : FileTree}
      (hdownload : (a.download path keys).outcome = .ok ())
      (hcomplete : (a.made path).complete (Staging.temporaryPath path)
        (a.download path keys).writer.content path = (written, .ok ())) :
      Ends a path keys
        ⟨written, (a.download path keys).trace ++
            [.staged path keys.length (a.download path keys).writer.content.length],
          .ok (.downloaded keys.length (a.download path keys).writer.content.length)⟩

theorem ends (a : Attempt) (path : String) (keys : List String) :
    a.Ends path keys (Staging.ofKeys a.store a.tree path a.chunk keys) := by
  unfold Staging.ofKeys
  dsimp only
  split
  · rename_i made e hprepare
    obtain rfl : a.made path = made := by rw [Attempt.made, hprepare]
    exact .noRoom hprepare
  · rename_i made hprepare
    obtain rfl : a.made path = made := by rw [Attempt.made, hprepare]
    split
    · rename_i e hdownload
      exact .broken hprepare hdownload
    · rename_i hdownload
      split
      · rename_i written e hcomplete
        exact .unplaced hprepare hdownload hcomplete
      · rename_i written hcomplete
        exact .placed hdownload hcomplete

/-- What an attempt with listed keys does: it fails having touched only the file under
construction, which is gone, or it stages what it has read. -/
inductive Construction (a : Attempt) (path : String) (keys : List String) : Staging → Prop where
  | failed {files : FileTree} {trace : List StagingNotice} {e : StorageError}
      (hfiles : FileTree.DiffersAtPath (Staging.temporaryPath path)
        (a.tree.makeAncestors (Staging.temporaryPath path)).1 files)
      (hgone : ∀ content, files.read (Staging.temporaryPath path) ≠ .ok content) :
      Construction a path keys ⟨files, trace, .error e⟩
  | staged {files : FileTree} {trace : List StagingNotice} {objects : List Bytes}
      (hobjects : List.Forall₂ (Staging.Stages a.store (a.made path) path objects.flatten)
        keys objects)
      (hread : files.read path = .ok objects.flatten) :
      Construction a path keys
        ⟨files, trace, .ok (.downloaded keys.length objects.flatten.length)⟩

theorem stages_of_download {a : Attempt} {path : String} {keys : List String}
    (hdownload : (a.download path keys).outcome = .ok ()) :
    ∃ objects : List Bytes,
      List.Forall₂ (Staging.Stages a.store (a.made path) path objects.flatten) keys objects ∧
      (a.download path keys).writer.content = objects.flatten := by
  obtain ⟨objects, hobjects, hcontent⟩ :=
    Staging.readAll_content (Staging.grows_holding a.store (a.made path) _) .empty hdownload
  have hwhole : (Writer.empty.content ++ objects.flatten : Bytes) = objects.flatten := rfl
  rw [hwhole] at hcontent
  refine ⟨objects, hobjects.imp fun key data hdata => ?_, hcontent⟩
  obtain ⟨octets, hbeginning, hobject⟩ := hdata
  rcases a.store.object?_holding (a.made path) (Staging.temporaryPath path) key with
    hsame | ⟨hnames, hfile⟩
  · left
    rw [← hsame octets]
    exact hobject
  · right
    rw [hfile, Option.some.injEq] at hobject
    rw [← hobject, ← hcontent]
    exact ⟨hnames, hbeginning.trans (Writer.written_isPrefix_content _)⟩

theorem construction (a : Attempt) (path : String) (keys : List String) :
    a.Construction path keys (Staging.ofKeys a.store a.tree path a.chunk keys) := by
  have hprepare : FileTree.DiffersAtPath (Staging.temporaryPath path)
      (a.tree.makeAncestors (Staging.temporaryPath path)).1 (a.made path) :=
    FileTree.prepare_differsAtPath a.tree (Staging.temporaryPath path)
  have hdiscard : ∀ {files}, FileTree.DiffersAtPath (Staging.temporaryPath path)
      (a.tree.makeAncestors (Staging.temporaryPath path)).1 files →
      ∀ trace e, a.Construction path keys
        ⟨files.discard (Staging.temporaryPath path), trace, .error e⟩ := by
    intro files hfiles trace e
    exact .failed (hfiles.trans (FileTree.discard_differsAtPath files _))
      (FileTree.read_discard files _)
  have hcompletion := FileTree.completion (a.made path) (Staging.temporaryPath path)
    (a.download path keys).writer.content path
  have hends := a.ends path keys
  generalize Staging.ofKeys a.store a.tree path a.chunk keys = staging at hends ⊢
  cases hends with
  | noRoom => exact hdiscard hprepare _ _
  | broken => exact hdiscard hprepare _ _
  | unplaced _ _ hcomplete =>
      rw [hcomplete] at hcompletion
      cases hcompletion with
      | failed hlater => exact hdiscard (hprepare.trans hlater) _ _
  | placed hdownload hcomplete =>
      obtain ⟨objects, hobjects, hcontent⟩ := stages_of_download hdownload
      rw [hcomplete] at hcompletion
      rw [hcontent] at hcompletion ⊢
      cases hcompletion with
      | moved _ hplace hdirectories hnode _ _ =>
          refine .staged hobjects (FileTree.read_eq_ok_iff.mpr ?_)
          exact ⟨_, FileTree.place?_of_keepsDirectories hdirectories hplace, hnode⟩

theorem skips_of_exists {a : Attempt} {path : String} (hexists : a.tree.exists? path = true) :
    a.Skips path := by
  constructor <;> simp [staging, Staging.run, hexists]

theorem staging_of_listed {a : Attempt} {path key : String} {keys : List String}
    (habsent : a.tree.exists? path = false)
    (hlist : a.store.list a.tree a.stem = .ok (key :: keys)) :
    a.staging path =
      { Staging.ofKeys a.store a.tree path a.chunk (key :: keys) with
        trace := .listed a.stem (keys.length + 1) ::
          (Staging.ofKeys a.store a.tree path a.chunk (key :: keys)).trace } := by
  simp [staging, Staging.run, habsent, hlist]

/-- On a tree in which the destination is free, a call fails and leaves it free, or
downloads everything. -/
theorem fails_or_downloads {a : Attempt} {path name : String}
    (hname : Path.fileName? path = some name) (hfree : a.tree.Free path) :
    (a.Fails path ∧ (a.staging path).files.Free path) ∨
      ∃ keys objects, a.Downloads path keys objects := by
  have habsent := hfree.absent
  cases hlist : a.store.list a.tree a.stem with
  | error e =>
      have hrun : a.staging path = ⟨a.tree, [], .error e⟩ := by
        simp [staging, Staging.run, habsent, hlist]
      left
      refine ⟨⟨⟨e, by rw [hrun]⟩, by rw [hrun]; exact habsent, ?_⟩, by rw [hrun]; exact hfree⟩
      intro keys hkeys
      rw [hlist] at hkeys
      contradiction
  | ok keys =>
      cases keys with
      | nil =>
          have hrun : a.staging path =
              ⟨a.tree, [], .error (.fetch a.stem .nothingListed)⟩ := by
            simp [staging, Staging.run, habsent, hlist]
          left
          refine ⟨⟨⟨_, by rw [hrun]⟩, by rw [hrun]; exact habsent, ?_⟩,
            by rw [hrun]; exact hfree⟩
          intro keys hkeys hne
          rw [hlist, Except.ok.injEq] at hkeys
          exact absurd hkeys.symm hne
      | cons key keys =>
          have hconstruction := a.construction path (key :: keys)
          have hrun := staging_of_listed habsent hlist
          generalize hmade : Staging.ofKeys a.store a.tree path a.chunk (key :: keys) = made
            at hconstruction hrun
          cases hconstruction with
          | failed hfiles hgone =>
              left
              refine ⟨⟨⟨_, by rw [hrun]⟩, ?_, ?_⟩, ?_⟩
              · rw [hrun]
                exact (FileTree.exists?_of_construction hname hfiles).trans hfree
              · intro _ _ _
                rw [hrun]
                exact hgone
              · rw [hrun]
                exact hfree.of_construction hname hfiles
          | staged hobjects hread =>
              right
              refine ⟨key :: keys, _, hlist, ObjectStore.sorted_list hlist, hobjects, ?_, ?_⟩
              · rw [hrun]
              · rw [hrun]
                exact hread

end Attempt
end ZoneDemand
