import ZoneDemand.FileTree.Replace
import ZoneDemand.Journal
import ZoneDemand.Staging.Writer
import ZoneDemand.Store
import ZoneDemand.Store.Progress

/-!
# Staging

Staging concatenates the objects under a prefix, in the order of their keys, into
one local file.  A file that is already there is trusted and nothing is read.
Objects are read in chunks, and each chunk is written before the next one is read;
the file appears only when every object has been read to its end, and a failing attempt
removes what it had begun.  A store in a directory may find the file under construction
among its objects, so every call of the store sees the tree with the octets that have
reached that file so far.

Besides its outcome and the new file tree, an attempt tells what it did in the
order in which it did it.
-/

namespace ZoneDemand

inductive StagingOutcome where
  | skipped
  | downloaded (objects bytes : Nat)
deriving DecidableEq, Repr

inductive StagingNotice where
  | alreadyThere (path : String)
  | listed (stem : String) (objects : Nat)
  | downloading (key : String) (size : Nat)
  | progress (p : Progress)
  | staged (path : String) (objects bytes : Nat)
deriving DecidableEq, Repr

/-- What a download has told and written, whatever becomes of it. -/
structure Download where
  trace : List StagingNotice
  writer : Writer
  outcome : Except StorageError Unit

namespace Staging

section Objects

variable (store : ObjectStore) (see : Bytes → FileTree) (chunk : Nat)

/-- Reads an object from `offset` on, in chunks of `chunk` octets.  A chunk may
come back shorter, but not empty. -/
def readFrom (key : String) (size : Nat) (tracker : PercentTracker) (offset : Nat)
    (writer : Writer) : Download :=
  if h : offset < size then
    match store.read (see writer.written) key offset (min (offset + chunk) size) with
    | .error e => ⟨[], writer, .error e⟩
    | .ok [] => ⟨[], writer, .error (.fetch key (.endedEarly offset size))⟩
    | .ok (octet :: octets) =>
        let read := (octet :: octets).length
        let (next, percent) := tracker.advance (UInt64.ofNat read)
        let notices := match percent with
          | some p => [.progress (.percent key p)]
          | none => []
        have : size - (offset + (octets.length + 1)) < size - offset := by omega
        let rest := readFrom key size next (offset + (octets.length + 1))
          (writer.write (octet :: octets))
        { rest with trace := notices ++ rest.trace }
  else ⟨[.progress (.finished key offset)], writer, .ok ()⟩
termination_by size - offset

def readObject (key : String) (writer : Writer) : Download :=
  match store.size (see writer.written) key with
  | .error e => ⟨[], writer, .error e⟩
  | .ok size =>
      let rest := readFrom store see chunk key size (.ofTotal (UInt64.ofNat size)) 0 writer
      { rest with trace := .downloading key size :: .progress (.started key size) :: rest.trace }

/-- Reads objects one after another up to the first that fails. -/
def readAll : List String → Writer → Download
  | [], writer => ⟨[], writer, .ok ()⟩
  | key :: keys, writer =>
      let first := readObject store see chunk key writer
      match first.outcome with
      | .error _ => first
      | .ok () =>
          let rest := readAll keys first.writer
          { rest with trace := first.trace ++ rest.trace }

end Objects

def temporaryPath (path : String) : String := Path.sibling path ".part"

end Staging

structure Staging where
  files : FileTree
  trace : List StagingNotice
  outcome : Except StorageError StagingOutcome

namespace Staging

/-- Downloads the listed objects into the file at `path`. -/
def ofKeys (store : ObjectStore) (tree : FileTree) (path : String) (chunk : Nat)
    (keys : List String) : Staging :=
  let part := temporaryPath path
  match tree.prepare part with
  | (made, .error e) => ⟨made.discard part, [], .error (.localFile e.path e.fault)⟩
  | (made, .ok ()) =>
      let download := readAll store (made.holding part) (max chunk 1) keys .empty
      match download.outcome with
      | .error e => ⟨made.discard part, download.trace, .error e⟩
      | .ok () =>
          let bytes := download.writer.content
          match made.complete part bytes path with
          | (written, .error e) =>
              ⟨written.discard part, download.trace, .error (.localFile e.path e.fault)⟩
          | (written, .ok ()) =>
              ⟨written, download.trace ++ [.staged path keys.length bytes.length],
                .ok (.downloaded keys.length bytes.length)⟩

/-- Stages the objects under `stem` into the file at `path`. -/
def run (store : ObjectStore) (tree : FileTree) (stem path : String) (chunk : Nat) :
    Staging :=
  if tree.exists? path then ⟨tree, [.alreadyThere path], .ok .skipped⟩
  else match store.list tree stem with
    | .error e => ⟨tree, [], .error e⟩
    | .ok [] => ⟨tree, [], .error (.fetch stem .nothingListed)⟩
    | .ok (key :: keys) =>
        let staging := ofKeys store tree path chunk (key :: keys)
        { staging with trace := .listed stem (keys.length + 1) :: staging.trace }

def progress (trace : List StagingNotice) : List Progress :=
  trace.filterMap fun
    | .progress p => some p
    | _ => none

end Staging

namespace StagingNotice

/-- The journal entry of a notice; progress is not reported. -/
def report? : StagingNotice → Option Entry
  | .alreadyThere path => some (.info s!"{path} exists, download skipped" [])
  | .listed stem objects =>
      some (.info "Staging source objects" [("prefix", stem), ("objects", toString objects)])
  | .downloading key size => some (.info s!"downloading {key} ... ({size} bytes)" [])
  | .staged path objects bytes =>
      some (.info "Source staged"
        [("path", path), ("objects", toString objects), ("bytes", toString bytes)])
  | .progress _ => none

/-- The journal entry of a notice, progress included. -/
def verboseReport? : StagingNotice → Option Entry
  | .progress (.percent key percent) =>
      some (.debug "download progress" [("key", key), ("percent", toString percent)])
  | .progress (.finished key bytes) =>
      some (.debug "download finished" [("key", key), ("bytes", toString bytes)])
  | notice => notice.report?

end StagingNotice
end ZoneDemand
