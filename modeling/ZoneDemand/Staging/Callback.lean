import ZoneDemand.Staging

/-!
# Staging under observation

A caller may pass a callback that is told the progress while the objects are being read, at the
moment at which it is made.  What a callback does with it is its own affair: it has a state of
its own and answers nothing.
-/

namespace ZoneDemand

abbrev ProgressCallback (σ : Type) := Progress → StateM σ Unit

namespace Staging

section Objects

variable {σ : Type} (callback? : Option (ProgressCallback σ))

/-- Tells the callback, if there is one. -/
def notify (p : Progress) : StateM σ Unit :=
  match callback? with
  | some callback => callback p
  | none => pure ()

variable (store : ObjectStore) (see : Bytes → FileTree) (chunk : Nat)

/-- As `readFrom`, telling the callback after every chunk that has made the percentage grow. -/
def readFromWith (key : String) (size : Nat) (tracker : PercentTracker) (offset : Nat)
    (writer : Writer) : ExceptT StorageError (StateM σ) Writer :=
  if h : offset < size then
    match store.read (see writer.written) key offset (min (offset + chunk) size) with
    | .error e => throw e
    | .ok [] => throw (.fetch key (.endedEarly offset size))
    | .ok (octet :: octets) => do
        let (next, percent) := tracker.advance (UInt64.ofNat (octet :: octets).length)
        if let some p := percent then
          notify callback? (.percent key p)
        have : size - (offset + (octets.length + 1)) < size - offset := by omega
        readFromWith key size next (offset + (octets.length + 1))
          (writer.write (octet :: octets))
  else do
    notify callback? (.finished key offset)
    pure writer
termination_by size - offset

def readObjectWith (key : String) (writer : Writer) : ExceptT StorageError (StateM σ) Writer :=
  match store.size (see writer.written) key with
  | .error e => throw e
  | .ok size => do
      notify callback? (.started key size)
      readFromWith callback? store see chunk key size (.ofTotal (UInt64.ofNat size)) 0 writer

/-- Reads objects one after another up to the first that fails. -/
def readAllWith : List String → Writer → ExceptT StorageError (StateM σ) Writer
  | [], writer => pure writer
  | key :: keys, writer => do
      let next ← readObjectWith callback? store see chunk key writer
      readAllWith keys next

end Objects

variable {σ : Type} (callback? : Option (ProgressCallback σ))

def ofKeysWith (store : ObjectStore) (tree : FileTree) (path : String) (chunk : Nat)
    (keys : List String) : StateM σ (FileTree × Except StorageError StagingOutcome) :=
  let part := temporaryPath path
  match tree.prepare part with
  | (made, .error e) => pure (made.discard part, .error (.localFile e.path e.fault))
  | (made, .ok ()) => do
      match ← (readAllWith callback? store (made.holding part) (max chunk 1) keys .empty).run with
      | .error e => pure (made.discard part, .error e)
      | .ok writer =>
          let bytes := writer.content
          match made.complete part bytes path with
          | (written, .error e) =>
              pure (written.discard part, .error (.localFile e.path e.fault))
          | (written, .ok ()) => pure (written, .ok (.downloaded keys.length bytes.length))

/-- Stages the objects under `stem` into the file at `path`, with or without a callback. -/
def runWith (store : ObjectStore) (tree : FileTree) (stem path : String) (chunk : Nat) :
    StateM σ (FileTree × Except StorageError StagingOutcome) :=
  if tree.exists? path then pure (tree, .ok .skipped)
  else match store.list tree stem with
    | .error e => pure (tree, .error e)
    | .ok [] => pure (tree, .error (.fetch stem .nothingListed))
    | .ok (key :: keys) => ofKeysWith callback? store tree path chunk (key :: keys)

end Staging
end ZoneDemand
