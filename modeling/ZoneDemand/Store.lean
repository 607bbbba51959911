import ZoneDemand.Store.Directory
import ZoneDemand.Store.Memory
import ZoneDemand.Store.Transport

/-!
# The object store

Objects live in memory, in a directory of the local file tree, or in a remote
bucket behind a transport.  Keys are normalised before any store sees them, and
errors name the key as the caller gave it.
-/

namespace ZoneDemand

inductive ObjectStore where
  | memory (store : MemoryStore)
  | directory (store : DirectoryStore)
  | bucket (transport : Transport)

namespace ObjectStore

/-- The keys under a prefix in the order of their characters. -/
def list (store : ObjectStore) (tree : FileTree) (stem : String) :
    Except StorageError (List String) :=
  let listed := match store with
    | .memory m => m.list (Key.normalize stem)
    | .directory d => d.list tree (Key.normalize stem)
    | .bucket t => t.list (Key.normalize stem)
  match listed with
  | .ok keys => .ok (keys.mergeSort fun a b => decide (a ≤ b))
  | .error fault => .error (.fetch stem (.store fault))

def statSize (store : ObjectStore) (tree : FileTree) (key : String) :
    Except StoreFault Nat :=
  match store with
  | .memory m => m.size (Key.normalize key)
  | .directory d => d.size tree (Key.normalize key)
  | .bucket t => t.size (Key.normalize key)

def size (store : ObjectStore) (tree : FileTree) (key : String) :
    Except StorageError Nat :=
  (store.statSize tree key).mapError fun fault => .fetch key (.store fault)

def contains (store : ObjectStore) (tree : FileTree) (key : String) :
    Except StorageError Bool :=
  match store.statSize tree key with
  | .ok _ => .ok true
  | .error .notFound => .ok false
  | .error fault => .error (.fetch key (.store fault))

/-- The octets of an object from `start` up to `finish`. -/
def read (store : ObjectStore) (tree : FileTree) (key : String) (start finish : Nat) :
    Except StorageError Bytes :=
  let bytes := match store with
    | .memory m => m.read (Key.normalize key) start finish
    | .directory d => d.read tree (Key.normalize key) start finish
    | .bucket t => t.read (Key.normalize key) start finish
  bytes.mapError fun fault => .fetch key (.store fault)

/-- Creates or replaces an object.  A store in a directory changes the file tree,
any other store only itself. -/
def write (store : ObjectStore) (tree : FileTree) (key : String) (data : Bytes) :
    ObjectStore × FileTree × Except StorageError Unit :=
  match store with
  | .memory m =>
      match m.write (Key.normalize key) data with
      | .ok written => (.memory written, tree, .ok ())
      | .error fault => (store, tree, .error (.upload key (.store fault)))
  | .directory d =>
      match d.write tree (Key.normalize key) data with
      | (written, .ok ()) => (store, written, .ok ())
      | (written, .error fault) => (store, written, .error (.upload key (.store fault)))
  | .bucket t =>
      match t.write (Key.normalize key) data with
      | .ok written => (.bucket written, tree, .ok ())
      | .error fault => (store, tree, .error (.upload key (.store fault)))

end ObjectStore
end ZoneDemand
