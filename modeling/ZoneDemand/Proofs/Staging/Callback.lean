import ZoneDemand.Staging.Callback
import ZoneDemand.Proofs.Outcomes

/-!
# Staging with a callback

A callback only listens.  Staging with a callback does what staging without one does, and the
callback is told the progress of the trace, all of it and in its order.
-/

namespace ZoneDemand
namespace Staging

section Notices

@[simp] theorem progress_nil : progress [] = [] := rfl

@[simp] theorem progress_append (trace later : List StagingNotice) :
    progress (trace ++ later) = progress trace ++ progress later :=
  List.filterMap_append

@[simp] theorem progress_listed (stem : String) (objects : Nat) (trace : List StagingNotice) :
    progress (.listed stem objects :: trace) = progress trace := rfl

@[simp] theorem progress_staged (path : String) (objects bytes : Nat)
    (trace : List StagingNotice) :
    progress (.staged path objects bytes :: trace) = progress trace := rfl

end Notices

section Told

variable {σ : Type} (callback? : Option (ProgressCallback σ))

/-- Tells the callback the progress of a trace. -/
def tell (trace : List StagingNotice) : StateM σ Unit :=
  (progress trace).forM (notify callback?)

@[simp] theorem tell_nil : tell callback? [] = pure () := rfl

@[simp] theorem tell_progress (p : Progress) (trace : List StagingNotice) :
    tell callback? (.progress p :: trace) =
      (do
        notify callback? p
        tell callback? trace) := rfl

@[simp] theorem tell_downloading (key : String) (size : Nat) (trace : List StagingNotice) :
    tell callback? (.downloading key size :: trace) = tell callback? trace := rfl

@[simp] theorem tell_listed (stem : String) (objects : Nat) (trace : List StagingNotice) :
    tell callback? (.listed stem objects :: trace) = tell callback? trace := rfl

@[simp] theorem tell_staged (path : String) (objects bytes : Nat)
    (trace : List StagingNotice) :
    tell callback? (.staged path objects bytes :: trace) = tell callback? trace := rfl

theorem tell_append (trace later : List StagingNotice) :
    tell callback? (trace ++ later) =
      (do
        tell callback? trace
        tell callback? later) := by
  unfold tell
  rw [progress_append]
  exact List.forM_append ..

@[simp] theorem run_notify {ε α : Type} (p : Progress) (rest : ExceptT ε (StateM σ) α) :
    ExceptT.run (m := StateM σ) (do
      notify callback? p
      rest) =
      (do
        notify callback? p
        rest.run) :=
  ExceptT.run_bind_lift ..

section Objects

variable (store : ObjectStore) (see : Bytes → FileTree) (chunk : Nat) (key : String)

theorem run_readFromWith (size : Nat) (tracker : PercentTracker) (offset : Nat)
    (writer : Writer) :
    (readFromWith callback? store see chunk key size tracker offset writer).run =
      (do
        let download := readFrom store see chunk key size tracker offset writer
        tell callback? download.trace
        pure (download.outcome.map fun _ => download.writer)) := by
  induction hleft : size - offset using Nat.strongRecOn generalizing tracker offset writer with
  | ind left ih =>
      unfold readFromWith readFrom
      by_cases hless : offset < size
      · rw [dif_pos hless, dif_pos hless]
        cases store.read (see writer.written) key offset (min (offset + chunk) size) with
        | error e => rfl
        | ok bytes =>
            cases bytes with
            | nil => rfl
            | cons octet octets =>
                dsimp only
                generalize tracker.advance (UInt64.ofNat (octet :: octets).length) = advanced
                obtain ⟨next, percent⟩ := advanced
                have hrest := ih _ (by omega) next (offset + (octets.length + 1))
                  (writer.write (octet :: octets)) rfl
                cases percent with
                | none => simp [hrest]
                | some p => simp [hrest]
      · rw [dif_neg hless, dif_neg hless]
        simp

theorem run_readObjectWith (writer : Writer) :
    (readObjectWith callback? store see chunk key writer).run =
      (do
        let download := readObject store see chunk key writer
        tell callback? download.trace
        pure (download.outcome.map fun _ => download.writer)) := by
  unfold readObjectWith readObject
  cases store.size (see writer.written) key with
  | error e => rfl
  | ok size => simp [run_readFromWith]

theorem run_readAllWith (keys : List String) (writer : Writer) :
    (readAllWith callback? store see chunk keys writer).run =
      (do
        let download := readAll store see chunk keys writer
        tell callback? download.trace
        pure (download.outcome.map fun _ => download.writer)) := by
  induction keys generalizing writer with
  | nil => rfl
  | cons key keys ih =>
      unfold readAllWith readAll
      dsimp only
      rw [ExceptT.run_bind, run_readObjectWith]
      generalize readObject store see chunk key writer = first
      obtain ⟨trace, next, outcome⟩ := first
      cases outcome with
      | error e => simp
      | ok => simp [ih, tell_append]

end Objects

theorem ofKeysWith_eq (store : ObjectStore) (tree : FileTree) (path : String) (chunk : Nat)
    (keys : List String) :
    ofKeysWith callback? store tree path chunk keys =
      (do
        let staging := ofKeys store tree path chunk keys
        tell callback? staging.trace
        pure (staging.files, staging.outcome)) := by
  unfold ofKeysWith ofKeys
  dsimp only
  cases tree.prepare (temporaryPath path) with
  | mk made prepared =>
      cases prepared with
      | error e => rfl
      | ok =>
          dsimp only
          rw [run_readAllWith]
          generalize readAll store (made.holding (temporaryPath path)) (max chunk 1) keys .empty =
            download
          obtain ⟨trace, writer, outcome⟩ := download
          cases outcome with
          | error e => simp
          | ok =>
              cases hcomplete : made.complete (temporaryPath path) writer.content path with
              | mk written completed =>
                  cases completed with
                  | error e => simp [hcomplete]
                  | ok => simp [hcomplete, tell_append]

theorem runWith_eq (store : ObjectStore) (tree : FileTree) (stem path : String) (chunk : Nat) :
    runWith callback? store tree stem path chunk =
      (do
        let staging := run store tree stem path chunk
        tell callback? staging.trace
        pure (staging.files, staging.outcome)) := by
  unfold runWith run
  split
  · rfl
  · cases store.list tree stem with
    | error e => rfl
    | ok keys =>
        cases keys with
        | nil => rfl
        | cons key keys =>
            dsimp only
            rw [ofKeysWith_eq, tell_listed]

end Told
end Staging
end ZoneDemand
