import ZoneDemand.FileTree.Path
import ZoneDemand.Text.Blank

/-!
# Keys of stored objects

A key is a list of names between slashes.  Before a store sees it, a key loses
blanks at its ends, leading slashes and doubled slashes; a slash at its end marks
a directory, and the empty key is the directory of all objects.
-/

namespace ZoneDemand
namespace Key

def root : String := "/"

def normalize (key : String) : String :=
  let text := (stripBoth isBlank key.toList).dropWhile (· = '/')
  if text.isEmpty then root
  else
    let names := (Path.split text).filter (· ≠ [])
    String.ofList (Path.join names ++ if text.getLast? = some '/' then ['/'] else [])

def isDirectory (key : String) : Bool := key.toList.getLast? = some '/'

/-- The key lies under the prefix; the prefix need not end at a slash. -/
def hasStem (stem key : String) : Bool :=
  stem = root || stem.toList.isPrefixOf key.toList

/-- The directory that holds what the prefix matches: the prefix up to its last
slash. -/
def directoryOf (stem : String) : String :=
  let text := dropRightWhile (· ≠ '/') stem.toList
  if text.isEmpty then root else String.ofList text

end Key
end ZoneDemand
