import ZoneDemand.DataError
import ZoneDemand.FileTree.Replace
import ZoneDemand.SeriesRecord

/-!
# Dataset files

A dataset file holds the records of a list of series, one per line.  It replaces
what was at its path in one step: if anything fails, that is as it was and the
file under construction is removed.
-/

namespace ZoneDemand

structure DatasetFile where
  path : String
  records : Nat
  bytes : Nat
deriving DecidableEq, Repr

namespace DatasetFile

/-- Every line ends in a line feed. -/
def content (lines : List String) : Bytes :=
  lines.flatMap fun line => Utf8.encode line ++ [0x0A]

def temporaryPath (path : String) : String := Path.sibling path ".tmp"

def write (tree : FileTree) (path : String) (series : List Series) (categories : Bool) :
    FileTree × Except DataError DatasetFile :=
  let temporary := temporaryPath path
  match tree.prepare temporary with
  | (made, .error e) => (made.discard temporary, .error (.file e.path e.fault))
  | (made, .ok ()) =>
      let bytes := content (recordLines categories series)
      match made.complete temporary bytes path with
      | (written, .error e) => (written.discard temporary, .error (.file e.path e.fault))
      | (written, .ok ()) => (written, .ok ⟨path, series.length, bytes.length⟩)

end DatasetFile
end ZoneDemand
