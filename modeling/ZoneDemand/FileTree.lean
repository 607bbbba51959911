import ZoneDemand.Association
import ZoneDemand.FileTree.Fault
import ZoneDemand.FileTree.Path
import ZoneDemand.Text.Utf8

/-!
# The local file tree

A tree of files and directories without links, seen from a working directory.  An
entry stands at a location, the list of names that leads to it from the root.
Every operation takes a path, follows it through directories only, and either
answers or fails with the fault that a caller reports.
-/

namespace ZoneDemand

abbrev Location := List String

inductive Node where
  | file (content : Bytes)
  | directory
deriving DecidableEq, Repr

structure FileTree where
  workingDirectory : Location
  entries : List (Location × Node)
deriving DecidableEq, Repr

namespace FileTree

def bare : FileTree where
  workingDirectory := ["work"]
  entries := [(["work"], .directory)]

/-- The entry at a location; the root is always a directory. -/
def node? (tree : FileTree) (location : Location) : Option Node :=
  if location = [] then some .directory else tree.entries.lookup location

/-- Replaces the entry at a location, or adds it. -/
def set (tree : FileTree) (location : Location) (node : Node) : FileTree :=
  { tree with entries := setValue location node tree.entries }

def erase (tree : FileTree) (location : Location) : FileTree :=
  { tree with entries := tree.entries.filter fun entry => entry.1 ≠ location }

/-- Removes the entry at a location and everything below it. -/
def eraseBelow (tree : FileTree) (location : Location) : FileTree :=
  { tree with entries := tree.entries.filter fun entry => !location.isPrefixOf entry.1 }

/-- Where a path leads: to a directory that is there, or to a name in one. -/
inductive Target where
  | directory (location : Location)
  | entry (parent : Location) (name : String) (slash : Bool)
deriving DecidableEq, Repr

def nameLimit : Nat := 255

def pathLimit : Nat := 4095

/-- One step from a directory. -/
def enter (tree : FileTree) (directory : Location) (name : String) :
    Except FileFault Location :=
  if name = "." then .ok directory
  else if name = ".." then .ok directory.dropLast
  else if nameLimit < name.utf8ByteSize then .error .nameTooLong
  else match tree.node? (directory ++ [name]) with
    | none => .error .notFound
    | some (.file _) => .error .notDirectory
    | some .directory => .ok (directory ++ [name])

/-- Follows names from a directory up to the last one, which need not exist. -/
def follow (tree : FileTree) (slash : Bool) (directory : Location) :
    List String → Except FileFault Target
  | [] => .ok (.directory directory)
  | [name] =>
      if name = "." then .ok (.directory directory)
      else if name = ".." then .ok (.directory directory.dropLast)
      else if nameLimit < name.utf8ByteSize then .error .nameTooLong
      else .ok (.entry directory name slash)
  | name :: rest =>
      match tree.enter directory name with
      | .error fault => .error fault
      | .ok next => tree.follow slash next rest

def target (tree : FileTree) (path : String) : Except FileFault Target :=
  let text := path.toList
  if text.contains '\x00' then .error .zeroInName
  else if text.isEmpty then .error .notFound
  else if pathLimit < path.utf8ByteSize then .error .nameTooLong
  else
    let (absolute, segments) := Path.segments text
    let names := (segments.filter (· ≠ [])).map String.ofList
    tree.follow (text.getLast? == some '/')
      (if absolute then [] else tree.workingDirectory) names

def stat (tree : FileTree) (path : String) : Except FileFault Node := do
  match ← tree.target path with
  | .directory _ => pure .directory
  | .entry parent name slash =>
      match tree.node? (parent ++ [name]) with
      | none => throw .notFound
      | some (.file content) => if slash then throw .notDirectory else pure (.file content)
      | some .directory => pure .directory

def exists? (tree : FileTree) (path : String) : Bool := (tree.stat path).isOk

def isDirectory (tree : FileTree) (path : String) : Bool :=
  match tree.stat path with
  | .ok .directory => true
  | _ => false

def read (tree : FileTree) (path : String) : Except FileFault Bytes := do
  match ← tree.stat path with
  | .file content => pure content
  | .directory => throw .isDirectory

def readText (tree : FileTree) (path : String) : Except FileFault String := do
  match Utf8.decode? (← tree.read path) with
  | some text => pure text
  | none => throw .notText

def fileTarget (tree : FileTree) (path : String) : Except FileFault Location := do
  match ← tree.target path with
  | .directory _ => throw .isDirectory
  | .entry parent name slash =>
      if slash then throw .isDirectory
      match tree.node? (parent ++ [name]) with
      | some .directory => throw .isDirectory
      | _ => pure (parent ++ [name])

/-- Gives a file new content, or creates it. -/
def write (tree : FileTree) (path : String) (content : Bytes) : Except FileFault FileTree := do
  pure (tree.set (← tree.fileTarget path) (.file content))

def makeDirectory (tree : FileTree) (path : String) : Except FileFault FileTree := do
  match ← tree.target path with
  | .directory _ => throw .exists
  | .entry parent name _ =>
      match tree.node? (parent ++ [name]) with
      | none => pure (tree.set (parent ++ [name]) .directory)
      | some _ => throw .exists

/-- Creates a directory and the missing ones above it, walking up at most `depth`
levels.  A fault other than a missing ancestor is no failure if the directory is
there. -/
def makeDirectoriesUpTo : Nat → FileTree → String → FileTree × Except FileFault Unit
  | 0, tree, _ => (tree, .error .notFound)
  | depth + 1, tree, path =>
      if path = "" then (tree, .ok ())
      else match tree.makeDirectory path with
        | .ok made => (made, .ok ())
        | .error .notFound =>
            match Path.parent? path with
            | none => (tree, .error (.other "failed to create whole tree"))
            | some parent =>
                match makeDirectoriesUpTo depth tree parent with
                | (above, .error fault) => (above, .error fault)
                | (above, .ok ()) =>
                    match above.makeDirectory path with
                    | .ok made => (made, .ok ())
                    | .error fault =>
                        (above, if above.isDirectory path then .ok () else .error fault)
        | .error fault => (tree, if tree.isDirectory path then .ok () else .error fault)

/-- Every parent is shorter than its path. -/
def makeDirectories (tree : FileTree) (path : String) : FileTree × Except FileFault Unit :=
  makeDirectoriesUpTo (path.length + 1) tree path

def remove (tree : FileTree) (path : String) : Except FileFault FileTree := do
  match ← tree.target path with
  | .directory _ => throw .isDirectory
  | .entry parent name slash =>
      match tree.node? (parent ++ [name]) with
      | none => throw .notFound
      | some .directory => throw .isDirectory
      | some (.file _) =>
          if slash then throw .notDirectory else pure (tree.erase (parent ++ [name]))

def discard (tree : FileTree) (path : String) : FileTree :=
  match tree.remove path with
  | .ok removed => removed
  | .error _ => tree

/-- Removes a file, or a directory with everything below it. -/
def removeAll (tree : FileTree) (path : String) : Except FileFault FileTree := do
  match ← tree.target path with
  | .directory location => pure (tree.eraseBelow location)
  | .entry parent name slash =>
      match tree.node? (parent ++ [name]) with
      | none => throw .notFound
      | some .directory => pure (tree.eraseBelow (parent ++ [name]))
      | some (.file _) =>
          if slash then throw .notDirectory else pure (tree.erase (parent ++ [name]))

/-- Moves the file at `source` to `destination`, replacing a file there. -/
def rename (tree : FileTree) (source destination : String) : Except FileFault FileTree := do
  match ← tree.target source, ← tree.target destination with
  | .entry parent name slash, .entry newParent newName newSlash =>
      match tree.node? (parent ++ [name]) with
      | some (.file content) =>
          if slash || newSlash then throw .notDirectory
          match tree.node? (newParent ++ [newName]) with
          | some .directory => throw .isDirectory
          | _ =>
              if parent ++ [name] = newParent ++ [newName] then pure tree
              else
                pure ((tree.erase (parent ++ [name])).set (newParent ++ [newName])
                  (.file content))
      | some .directory => throw .isDirectory
      | none => throw .notFound
  | _, _ => throw .busy

/-- The entries below the working directory, by their names from there. -/
def snapshot (tree : FileTree) : List (Location × Node) :=
  tree.entries.filterMap fun (location, node) =>
    if tree.workingDirectory.isPrefixOf location && location ≠ tree.workingDirectory then
      some (location.drop tree.workingDirectory.length, node)
    else none

end FileTree
end ZoneDemand
