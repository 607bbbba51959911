import ZoneDemand.Proofs.Staging.Attempt

/-!
# Runs of staging calls

Calls on one destination, on stores that change at will and fail at will, and changes of
the local tree elsewhere in between.  Such runs stage all or nothing exactly if the
destination does not come into being as one of the directories that are made for the file
under construction, as `x` does for the destination `x/../x`.
-/

namespace ZoneDemand

/-- A change of the tree that leaves alone what is at a path and on the way to it. -/
structure Undisturbed (path : String) (tree later : FileTree) : Prop where
  exists?_eq : later.exists? path = tree.exists? path
  read_iff : ∀ content, later.read path = .ok content ↔ tree.read path = .ok content
  free : tree.Free path → later.Free path

/-- The calls that have been made on a destination, and the tree that they have led to. -/
inductive StagingRun (path : String) (start : FileTree) : List Attempt → FileTree → Prop where
  | start : StagingRun path start [] start
  | call {history : List Attempt} (a : Attempt) (hbefore : StagingRun path start history a.tree) :
      StagingRun path start (history ++ [a]) (a.staging path).files
  | change {history : List Attempt} {tree later : FileTree}
      (hbefore : StagingRun path start history tree) (hchange : Undisturbed path tree later) :
      StagingRun path start history later

/-- All calls have failed and nothing is at the destination, or one call has downloaded
what is there and every later one has skipped. -/
inductive AllOrNothing (path : String) : List Attempt → FileTree → Prop where
  | nothing {history : List Attempt} {tree : FileTree} (hfailed : ∀ a ∈ history, a.Fails path)
      (habsent : tree.exists? path = false) : AllOrNothing path history tree
  | all {failed later : List Attempt} {a : Attempt} {tree : FileTree} {keys : List String}
      {objects : List Bytes} (hfailed : ∀ f ∈ failed, f.Fails path)
      (hdownload : a.Downloads path keys objects) (hskipped : ∀ l ∈ later, l.Skips path)
      (hread : tree.read path = .ok objects.flatten) :
      AllOrNothing path (failed ++ a :: later) tree

namespace AllOrNothing

variable {path : String} {history : List Attempt} {tree later : FileTree}

theorem change (h : AllOrNothing path history tree) (hchange : Undisturbed path tree later) :
    AllOrNothing path history later := by
  cases h with
  | nothing hfailed habsent => exact .nothing hfailed (hchange.exists?_eq.trans habsent)
  | all hfailed hdownload hskipped hread =>
      exact .all hfailed hdownload hskipped ((hchange.read_iff _).mpr hread)

theorem call {a : Attempt} {name : String} (hname : Path.fileName? path = some name)
    (h : AllOrNothing path history a.tree)
    (hfree : a.tree.exists? path = false → a.tree.Free path) :
    AllOrNothing path (history ++ [a]) (a.staging path).files ∧
      ((a.staging path).files.exists? path = false → (a.staging path).files.Free path) := by
  cases h with
  | nothing hfailed habsent =>
      rcases Attempt.fails_or_downloads hname (hfree habsent) with
        ⟨hfails, hstays⟩ | ⟨keys, objects, hdownloads⟩
      · refine ⟨.nothing ?_ hfails.absent, fun _ => hstays⟩
        intro b hb
        rcases List.mem_append.mp hb with hb | hb
        · exact hfailed b hb
        · rw [List.mem_singleton.mp hb]
          exact hfails
      · refine ⟨.all hfailed hdownloads (by simp) hdownloads.staged, ?_⟩
        intro hgone
        rw [FileTree.exists?_eq_true_iff.mpr (.inr ⟨_, hdownloads.staged⟩)] at hgone
        contradiction
  | @all failed later b _ keys objects hfailed hdownload hskipped hread =>
      have hexists : a.tree.exists? path = true :=
        FileTree.exists?_eq_true_iff.mpr (.inr ⟨_, hread⟩)
      have hskips := Attempt.skips_of_exists hexists
      rw [hskips.unchanged]
      constructor
      · rw [List.append_assoc, List.cons_append]
        refine .all hfailed hdownload ?_ hread
        intro l hl
        rcases List.mem_append.mp hl with hl | hl
        · exact hskipped l hl
        · rw [List.mem_singleton.mp hl]
          exact hskips
      · intro hgone
        rw [hexists] at hgone
        contradiction

end AllOrNothing

theorem StagingRun.allOrNothing {path name : String} {start tree : FileTree}
    {history : List Attempt} (hrun : StagingRun path start history tree)
    (hname : Path.fileName? path = some name) (hfree : start.Free path) :
    AllOrNothing path history tree ∧ (tree.exists? path = false → tree.Free path) := by
  induction hrun with
  | start => exact ⟨.nothing (by simp) hfree.absent, fun _ => hfree⟩
  | call a _ ih => exact ih.1.call hname ih.2
  | change _ hchange ih =>
      refine ⟨ih.1.change hchange, fun habsent => hchange.free (ih.2 ?_)⟩
      rw [← hchange.exists?_eq]
      exact habsent

def Transport.listing : Transport := { Transport.none with list := fun _ => .ok ["key"] }

/-- A call that fails after it has made room for the file. -/
def Attempt.broken (tree : FileTree) : Attempt := ⟨.bucket .listing, tree, "", 1⟩

theorem Attempt.broken_staging {tree : FileTree} {path name : String}
    (hname : Path.fileName? path = some name) (habsent : tree.exists? path = false) :
    (∃ e, ((Attempt.broken tree).staging path).outcome = .error e) ∧
      ((Attempt.broken tree).staging path).files.exists? path =
        (tree.makeAncestors (Staging.temporaryPath path)).1.exists? path := by
  have hlist : (ObjectStore.bucket .listing).list tree "" = .ok ["key"] := by
    change Except.ok (["key"].mergeSort _) = _
    rw [List.mergeSort_singleton]
  rw [staging_of_listed (a := Attempt.broken tree) habsent hlist]
  have hconstruction := (Attempt.broken tree).construction path ["key"]
  simp only [broken] at hconstruction ⊢
  generalize Staging.ofKeys (.bucket .listing) tree path 1 ["key"] = made at hconstruction ⊢
  cases hconstruction with
  | failed hfiles _ => exact ⟨⟨_, rfl⟩, FileTree.exists?_of_construction hname hfiles⟩
  | staged hobjects _ =>
      cases hobjects with
      | cons hobject _ =>
          have hnone := hobject.object? (by rintro ⟨d, place, hstore, -⟩; contradiction)
          simp [ObjectStore.object?, Transport.listing, Transport.none] at hnone

theorem AllOrNothing.absent_or_downloaded {path : String} {history : List Attempt}
    {tree : FileTree} (h : AllOrNothing path history tree) :
    tree.exists? path = false ∨ ∃ a ∈ history, ∃ keys objects, a.Downloads path keys objects := by
  cases h with
  | nothing _ habsent => exact .inl habsent
  | @all failed later a _ keys objects _ hdownload _ _ =>
      exact .inr ⟨a, by simp, keys, objects, hdownload⟩

theorem Attempt.broken_not_allOrNothing {tree : FileTree} {path name : String}
    (hname : Path.fileName? path = some name) (habsent : tree.exists? path = false)
    (hmade : ¬tree.Free path) :
    ¬AllOrNothing path [Attempt.broken tree] ((Attempt.broken tree).staging path).files := by
  intro hall
  obtain ⟨⟨e, herror⟩, hexists⟩ := Attempt.broken_staging hname habsent
  rcases hall.absent_or_downloaded with hgone | ⟨a, hone, keys, objects, hdownload⟩
  · rw [hexists] at hgone
    exact hmade hgone
  · have houtcome := hdownload.outcome
    rw [List.mem_singleton.mp hone, herror] at houtcome
    contradiction

/-- Staging is all or nothing over every run of calls exactly if the destination is free,
that is, if making the directories above the file under construction does not make it. -/
theorem allOrNothing_iff_free {path name : String} {start : FileTree}
    (hname : Path.fileName? path = some name) :
    (∀ history tree, StagingRun path start history tree → AllOrNothing path history tree) ↔
      start.Free path := by
  constructor
  · intro hall
    have habsent : start.exists? path = false := by
      rcases (hall [] start .start).absent_or_downloaded with habsent | ⟨a, hnone, -⟩
      · exact habsent
      · simp at hnone
    by_contra hmade
    exact Attempt.broken_not_allOrNothing hname habsent hmade
      (hall _ _ (.call (Attempt.broken start) .start))
  · intro hfree history tree hrun
    exact (hrun.allOrNothing hname hfree).1

/-- A call on a store that has an object, after one that has failed. -/
def Attempt.afterBroken : Attempt :=
  ⟨.memory ⟨[("key", [0x31])], [], []⟩, ((Attempt.broken .bare).staging "raw/day.csv").files, "", 1⟩

theorem allOrNothing_after_broken :
    Path.fileName? "raw/day.csv" = some "day.csv" ∧ FileTree.bare.Free "raw/day.csv" ∧
      AllOrNothing "raw/day.csv" [.broken .bare, .afterBroken]
        (Attempt.afterBroken.staging "raw/day.csv").files := by
  have hname : Path.fileName? "raw/day.csv" = some "day.csv" := by decide +kernel
  have hfree : FileTree.bare.Free "raw/day.csv" := by decide +kernel
  refine ⟨hname, hfree, (allOrNothing_iff_free hname).mpr hfree _ _ ?_⟩
  exact .call .afterBroken (.call (.broken .bare) .start)

/-- The directory `x` is made on the way to `x/../x.part`, and a failing call leaves it
behind, which every later call takes for the staged file. -/
theorem destination_left_as_directory :
    Path.fileName? "x/../x" = some "x" ∧ FileTree.bare.exists? "x/../x" = false ∧
      FileTree.bare.isDirectory (Staging.temporaryPath "x/../x") = false ∧
      ∃ history tree, StagingRun "x/../x" .bare history tree ∧
        ¬AllOrNothing "x/../x" history tree := by
  have hname : Path.fileName? "x/../x" = some "x" := by decide +kernel
  have habsent : FileTree.bare.exists? "x/../x" = false := by decide +kernel
  refine ⟨hname, habsent, by decide +kernel, _, _, .call (Attempt.broken .bare) .start, ?_⟩
  exact Attempt.broken_not_allOrNothing hname habsent (by decide +kernel)

end ZoneDemand
