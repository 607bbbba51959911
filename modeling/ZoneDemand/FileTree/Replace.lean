import ZoneDemand.FileTree

/-!
# Replacing a file in one step

A file that is produced bit by bit is written next to its destination and moved
there only when it is complete.  `prepare` makes room for it, `holding` is the tree
while it grows, and `complete` writes and moves it; `prepare` and `complete` report the
path at which a fault arose.
-/

namespace ZoneDemand

structure PathFault where
  path : String
  fault : FileFault
deriving DecidableEq, Repr

namespace FileTree

def makeAncestors (tree : FileTree) (path : String) : FileTree × Except PathFault Unit :=
  match Path.ancestor? path with
  | none => (tree, .ok ())
  | some ancestor =>
      match tree.makeDirectories ancestor with
      | (made, .ok ()) => (made, .ok ())
      | (made, .error fault) => (made, .error ⟨ancestor, fault⟩)

/-- Creates an empty file, with the directories above it. -/
def prepare (tree : FileTree) (path : String) : FileTree × Except PathFault Unit :=
  match tree.makeAncestors path with
  | (made, .error e) => (made, .error e)
  | (made, .ok ()) =>
      match made.write path [] with
      | .ok created => (created, .ok ())
      | .error fault => (made, .error ⟨path, fault⟩)

/-- The tree when octets of a prepared file have been written. -/
def holding (tree : FileTree) (path : String) (octets : Bytes) : FileTree :=
  match tree.write path octets with
  | .ok held => held
  | .error _ => tree

/-- Gives a prepared file its content and moves it to its destination. -/
def complete (tree : FileTree) (path : String) (content : Bytes) (destination : String) :
    FileTree × Except PathFault Unit :=
  match tree.write path content with
  | .error fault => (tree, .error ⟨path, fault⟩)
  | .ok written =>
      match written.rename path destination with
      | .ok moved => (moved, .ok ())
      | .error fault => (written, .error ⟨destination, fault⟩)

end FileTree
end ZoneDemand
