import ZoneDemand.Proofs.FileTree.Replacement
import ZoneDemand.Proofs.Store.Objects
import ZoneDemand.Staging
import Mathlib.Data.List.Forall2

/-!
# What a download reads

A read may come back short and a store may fail at any call.  A download that answers has
nevertheless read every object to its end: the next chunk starts where the last one ended,
and reading goes on until the size that the store has told.  The file under construction
grows meanwhile, and an object that is this very file grows with it, but what has been told
of it stays as it was.
-/

namespace ZoneDemand

namespace Writer

variable (writer : Writer) (octets : Bytes)

theorem written_isPrefix_content : writer.written <+: writer.content := List.prefix_append _ _

@[simp] theorem content_write : (writer.write octets).content = writer.content ++ octets := by
  by_cases hflush : capacity < writer.pending.length + octets.length
  · by_cases hlarge : capacity ≤ octets.length
    · simp [write, hflush, hlarge, content, flush]
    · simp [write, hflush, hlarge, content, flush]
  · by_cases hlarge : capacity ≤ octets.length
    · -- octets that fill the buffer fit beside those that wait only if none do
      have hnone : writer.pending = [] := List.length_eq_zero_iff.mp (by omega)
      simp only [write, if_neg hflush, if_pos hlarge, content]
      rw [hnone, List.append_nil, List.append_nil]
    · simp [write, hflush, hlarge, content]

theorem written_isPrefix_write : writer.written <+: (writer.write octets).written := by
  have hready : writer.written <+: (if capacity < writer.pending.length + octets.length
      then writer.flush else writer).written := by
    split
    · exact writer.written_isPrefix_content
    · exact List.prefix_refl _
  unfold write
  dsimp only
  split
  · exact hready.trans (List.prefix_append _ _)
  · exact hready

end Writer

/-! ## The file under construction as an object -/

/-- The key, in a store in a directory, of the file to which a path leads. -/
def ObjectStore.Names (store : ObjectStore) (tree : FileTree) (path key : String) : Prop :=
  ∃ d place, store = .directory d ∧ tree.place? path = some place ∧
    tree.place? (d.path (Key.normalize key)) = some place

/-- While a file is written, an object stays what it is, or it is the file. -/
theorem ObjectStore.object?_holding (store : ObjectStore) (tree : FileTree) (path key : String) :
    (∀ octets, store.object? (tree.holding path octets) key = store.object? tree key) ∨
      store.Names tree path key ∧
        ∀ octets, store.object? (tree.holding path octets) key = some octets := by
  cases store with
  | memory m => exact .inl fun _ => rfl
  | bucket t => exact .inl fun _ => rfl
  | directory d =>
      simp only [object?, DirectoryStore.found?]
      by_cases hroot : Key.normalize key = Key.root
      · exact .inl fun _ => by rw [if_pos hroot, if_pos hroot]
      by_cases hdir : Key.isDirectory (Key.normalize key) = true
      · exact .inl fun _ => by rw [if_neg hroot, if_pos hdir, if_neg hroot, if_pos hdir]
      simp only [if_neg hroot, if_neg hdir]
      rcases tree.read_holding path (d.path (Key.normalize key)) with
        hsame | ⟨place, hplace, hkey, hread⟩
      · left
        intro octets
        ext data
        rw [toOption_eq_some_iff, toOption_eq_some_iff]
        exact hsame octets data
      · right
        refine ⟨⟨d, place, rfl, hplace, hkey⟩, fun octets => ?_⟩
        exact toOption_eq_some_iff.mpr (hread octets)

namespace Staging

/-- While more is written, an object is at most continued. -/
def Grows (store : ObjectStore) (see : Bytes → FileTree) : Prop :=
  ∀ (key : String) (octets more data : Bytes), store.object? (see octets) key = some data →
    ∃ rest, store.object? (see (octets ++ more)) key = some (data ++ rest)

theorem grows_holding (store : ObjectStore) (tree : FileTree) (path : String) :
    Grows store (tree.holding path) := by
  intro key octets more data hdata
  rcases store.object?_holding tree path key with hsame | ⟨-, hfile⟩
  · refine ⟨[], ?_⟩
    rw [List.append_nil, hsame, ← hsame octets]
    exact hdata
  · rw [hfile, Option.some.injEq] at hdata
    subst data
    exact ⟨more, hfile _⟩

section Objects

variable {store : ObjectStore} {see : Bytes → FileTree} {chunk : Nat} {key : String}

/-! ## What has been written stays written -/

theorem readFrom_written {size offset : Nat} {tracker : PercentTracker} (writer : Writer) :
    writer.written <+:
      (readFrom store see chunk key size tracker offset writer).writer.written := by
  induction hleft : size - offset using Nat.strongRecOn generalizing tracker offset writer with
  | ind left ih =>
      unfold readFrom
      split
      · split
        · exact List.prefix_refl _
        · exact List.prefix_refl _
        · exact (writer.written_isPrefix_write _).trans (ih _ (by omega) _ rfl)
      · exact List.prefix_refl _

theorem readObject_written (writer : Writer) :
    writer.written <+: (readObject store see chunk key writer).writer.written := by
  unfold readObject
  split
  · exact List.prefix_refl _
  · exact readFrom_written writer

theorem readAll_of_ok {keys : List String} {writer : Writer}
    (hfirst : (readObject store see chunk key writer).outcome = .ok ()) :
    readAll store see chunk (key :: keys) writer =
      ⟨(readObject store see chunk key writer).trace ++
          (readAll store see chunk keys (readObject store see chunk key writer).writer).trace,
        (readAll store see chunk keys (readObject store see chunk key writer).writer).writer,
        (readAll store see chunk keys (readObject store see chunk key writer).writer).outcome⟩ := by
  simp [readAll, hfirst]

theorem readAll_written (keys : List String) (writer : Writer) :
    writer.written <+: (readAll store see chunk keys writer).writer.written := by
  induction keys generalizing writer with
  | nil => exact List.prefix_refl _
  | cons key keys ih =>
      have hfirst : writer.written <+: (readObject store see chunk key writer).writer.written :=
        readObject_written writer
      unfold readAll
      dsimp only
      split
      · exact hfirst
      · exact hfirst.trans (ih _)

/-! ## What is read -/

theorem drop_of_isPrefix {octets data : Bytes} {start count : Nat}
    (hread : octets <+: (data.drop start).take count) :
    data.drop start = octets ++ data.drop (start + octets.length) := by
  have htake : (data.drop start).take count <+: data.drop start := List.take_prefix count _
  have hdrop : octets <+: data.drop start := hread.trans htake
  obtain ⟨rest, hrest⟩ := hdrop
  rw [← List.drop_drop, ← hrest, List.drop_left]

/-- The invariant of the loop is that the object is at most a continuation of `data`, the
object at the time when its size was told. -/
theorem readFrom_content (hgrows : Grows store see) {data : Bytes} (writer : Writer)
    (hdata : ∃ rest, store.object? (see writer.written) key = some (data ++ rest))
    (tracker : PercentTracker) (offset : Nat)
    (hok : (readFrom store see chunk key data.length tracker offset writer).outcome = .ok ()) :
    (readFrom store see chunk key data.length tracker offset writer).writer.content =
      writer.content ++ data.drop offset := by
  induction hleft : data.length - offset using Nat.strongRecOn
    generalizing tracker offset writer with
  | ind left ih =>
      unfold readFrom at hok ⊢
      by_cases hless : offset < data.length
      · rw [dif_pos hless] at hok ⊢
        cases hread : store.read (see writer.written) key offset
            (min (offset + chunk) data.length) with
        | error e => simp [hread] at hok
        | ok bytes =>
            cases bytes with
            | nil => simp [hread] at hok
            | cons octet octets =>
                simp only [hread] at hok ⊢
                obtain ⟨rest, hobject⟩ := hdata
                obtain ⟨found, hfound, hbeginning⟩ := ObjectStore.read_eq hread
                rw [hobject, Option.some.injEq] at hfound
                subst found
                have hin : octet :: octets <+: (data.drop offset).take
                    (min (offset + chunk) data.length - offset) := by
                  rw [List.drop_append_of_le_length (by omega),
                    List.take_append_of_le_length (by rw [List.length_drop]; omega)] at hbeginning
                  exact hbeginning
                obtain ⟨more, hmore⟩ := writer.written_isPrefix_write (octet :: octets)
                have hnext : ∃ rest, store.object? (see (writer.write (octet :: octets)).written)
                    key = some (data ++ rest) := by
                  obtain ⟨grown, hgrown⟩ := hgrows key _ more _ hobject
                  rw [hmore, List.append_assoc] at hgrown
                  exact ⟨_, hgrown⟩
                rw [ih _ (by omega) _ hnext _ _ hok rfl, Writer.content_write, List.append_assoc,
                  drop_of_isPrefix hin, List.length_cons]
      · rw [dif_neg hless, List.drop_eq_nil_of_le (by omega), List.append_nil]

theorem readObject_content (hgrows : Grows store see) (writer : Writer)
    (hok : (readObject store see chunk key writer).outcome = .ok ()) :
    ∃ data, store.object? (see writer.written) key = some data ∧
      (readObject store see chunk key writer).writer.content = writer.content ++ data := by
  unfold readObject at hok ⊢
  cases hsize : store.size (see writer.written) key with
  | error e => simp [hsize] at hok
  | ok size =>
      simp only [hsize] at hok ⊢
      rcases ObjectStore.size_eq hsize with ⟨data, hdata, rfl⟩ | ⟨hpos, hnone⟩
      · have hstart : ∃ rest, store.object? (see writer.written) key = some (data ++ rest) :=
          ⟨[], by rw [List.append_nil]; exact hdata⟩
        rw [readFrom_content hgrows writer hstart _ 0 hok, List.drop_zero]
        exact ⟨data, hdata, rfl⟩
      · -- nothing of a directory can be read, and its size is not zero
        unfold readFrom at hok
        rw [dif_pos hpos] at hok
        split at hok
        · simp at hok
        · simp at hok
        · rename_i octet octets hread
          exact absurd hread (hnone _ _ _)

/-- A download writes complete objects one after another, each as it is at a time when some of
what is written has reached the file. -/
theorem readAll_content (hgrows : Grows store see) {keys : List String} (writer : Writer)
    (hok : (readAll store see chunk keys writer).outcome = .ok ()) :
    ∃ objects, List.Forall₂ (fun key data =>
        ∃ octets, octets <+: (readAll store see chunk keys writer).writer.written ∧
          store.object? (see octets) key = some data) keys objects ∧
      (readAll store see chunk keys writer).writer.content =
        writer.content ++ objects.flatten := by
  induction keys generalizing writer with
  | nil => exact ⟨[], .nil, by simp [readAll]⟩
  | cons key keys ih =>
      cases hfirst : (readObject store see chunk key writer).outcome with
      | error e => simp [readAll, hfirst] at hok
      | ok =>
          rw [readAll_of_ok hfirst] at hok ⊢
          obtain ⟨data, hdata, hcontent⟩ := readObject_content hgrows writer hfirst
          obtain ⟨objects, hobjects, hothers⟩ := ih _ hok
          refine ⟨data :: objects, .cons ⟨_, ?_, hdata⟩ hobjects, ?_⟩
          · exact (readObject_written writer).trans (readAll_written keys _)
          · rw [hothers, hcontent, List.flatten_cons, List.append_assoc]

end Objects

end Staging
end ZoneDemand
