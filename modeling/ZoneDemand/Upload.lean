import ZoneDemand.Journal
import ZoneDemand.Split
import ZoneDemand.Stem
import ZoneDemand.Store

/-!
# Uploading

A dataset file is stored under a key made of a prefix, its half of the dataset and
its name.  Uploading reads the whole local file, looks whether it replaces an
object, and writes.
-/

namespace ZoneDemand

/-- The key of a dataset file.  It never starts with a slash unless the file name
does. -/
def datasetKey (stem : String) (half : Half) (fileName : String) : String :=
  let trimmed := datasetStem stem
  if trimmed = "" then half.name ++ "/" ++ fileName
  else trimmed ++ "/" ++ half.name ++ "/" ++ fileName

structure Upload where
  store : ObjectStore
  files : FileTree
  journal : Journal
  outcome : Except StorageError Nat

namespace Upload

/-- Stores the local file at `path` under `key`; the outcome is its size. -/
def run (store : ObjectStore) (tree : FileTree) (path key : String) : Upload :=
  match tree.read path with
  | .error fault => ⟨store, tree, [], .error (.localFile path fault)⟩
  | .ok data =>
      match store.contains tree key with
      | .error e => ⟨store, tree, [], .error e⟩
      | .ok replaces =>
          let before :=
            (if replaces then [.debug "Replacing existing object" [("key", key)]] else []) ++
              [.info s!"uploading {path} => {key}" []]
          match store.write tree key data with
          | (written, files, .error e) => ⟨written, files, before, .error e⟩
          | (written, files, .ok ()) =>
              ⟨written, files,
                before ++ [.info "Upload complete"
                  [("key", key), ("bytes", toString data.length)]],
                .ok data.length⟩

end Upload
end ZoneDemand
