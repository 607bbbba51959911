import ZoneDemand.FileTree
import ZoneDemand.Store.Fault
import ZoneDemand.Store.Key

/-!
# The store in a directory

Objects are the files below a root directory, and an object's key is its path from
there.  The operations work on the local file tree and answer faults of the store.
-/

namespace ZoneDemand

/-- The path of the root from the root of the file tree. -/
structure DirectoryStore where
  root : String
deriving DecidableEq, Repr

namespace DirectoryStore

/-- Faults that a store does not tell apart are unexpected. -/
def faultOf : FileFault → StoreFault
  | .notFound => .notFound
  | _ => .unexpected

/-- Opens the store at a path, creating its directory if there is nothing. -/
def «open» (tree : FileTree) (path : String) :
    FileTree × Except StoreFault DirectoryStore :=
  if path = "" then (tree, .error .configInvalid)
  else
    let (made, outcome) := match tree.stat path with
      | .error .notFound => tree.makeDirectories path
      | _ => (tree, .ok ())
    match outcome, made.target path with
    | .ok (), .ok (.directory location) =>
        (made, .ok ⟨Path.render true (location.map String.toList)⟩)
    | .ok (), .ok (.entry parent name _) =>
        if (made.stat path).isOk then
          (made, .ok ⟨Path.render true ((parent ++ [name]).map String.toList)⟩)
        else (made, .error .unexpected)
    | _, _ => (made, .error .unexpected)

/-- The path of a key, a slash at its end being dropped. -/
def path (store : DirectoryStore) (key : String) : String :=
  Path.append store.root (String.ofList (dropRightWhile (· = '/') key.toList))

/-- The files below a directory, by their keys, given the key of the directory. -/
def filesBelow (tree : FileTree) (location : Location) (directory : String) : List String :=
  tree.entries.filterMap fun (other, node) =>
    match node with
    | .directory => none
    | .file _ =>
        if location.isPrefixOf other then
          let names := (other.drop location.length).map String.toList
          some ((if directory = Key.root then "" else directory) ++
            String.ofList (Path.join names))
        else none

/-- The keys under a prefix.  Where there is no directory, there are none. -/
def list (store : DirectoryStore) (tree : FileTree) (stem : String) :
    Except StoreFault (List String) :=
  let directory := Key.directoryOf stem
  let keys : Location → List String := fun location =>
    (filesBelow tree location directory).filter (Key.hasStem stem)
  match tree.target (store.path directory) with
  | .ok (.directory location) => .ok (keys location)
  | .ok (.entry parent name _) =>
      match tree.node? (parent ++ [name]) with
      | some .directory => .ok (keys (parent ++ [name]))
      | _ => .ok []
  | .error .notFound => .ok []
  | .error .notDirectory => .ok []
  | .error fault => .error (faultOf fault)

/-- The size that the file system reports for a directory. -/
def directorySize : Nat := 4096

def size (store : DirectoryStore) (tree : FileTree) (key : String) :
    Except StoreFault Nat :=
  if key = Key.root then .ok 0
  else match tree.stat (store.path key) with
    | .ok (.file content) => if Key.isDirectory key then .error .notFound else .ok content.length
    | .ok .directory => .ok directorySize
    | .error fault => .error (faultOf fault)

/-- The octets of an object from `start` up to `finish`, all of which must be
there. -/
def read (store : DirectoryStore) (tree : FileTree) (key : String) (start finish : Nat) :
    Except StoreFault Bytes :=
  if Key.isDirectory key then .error .isDirectory
  else match tree.read (store.path key) with
    | .ok content =>
        if finish ≤ content.length then .ok ((content.drop start).take (finish - start))
        else .error .unexpected
    | .error fault => .error (faultOf fault)

/-- Creates or replaces an object, with the directories above it. -/
def write (store : DirectoryStore) (tree : FileTree) (key : String) (data : Bytes) :
    FileTree × Except StoreFault Unit :=
  if Key.isDirectory key then (tree, .error .isDirectory)
  else
    let path := store.path key
    match tree.makeDirectories ((Path.parent? path).getD "") with
    | (made, .error fault) => (made, .error (faultOf fault))
    | (made, .ok ()) =>
        match made.write path data with
        | .ok written => (written, .ok ())
        | .error fault => (made, .error (faultOf fault))

end DirectoryStore
end ZoneDemand
