import ZoneDemand.FileTree

/-!
# A buffered writer

Octets on their way into a file wait in a buffer until it is full or the writer is
flushed.  Whoever reads the file meanwhile finds only those that have reached it.
-/

namespace ZoneDemand

structure Writer where
  written : Bytes
  pending : Bytes
deriving DecidableEq, Repr

namespace Writer

def empty : Writer := ⟨[], []⟩

def capacity : Nat := 8192

/-- Everything that has been given to the writer. -/
def content (writer : Writer) : Bytes := writer.written ++ writer.pending

def flush (writer : Writer) : Writer := ⟨writer.content, []⟩

/-- Octets that do not fit beside those that wait make the writer flush, and octets
that would fill the buffer by themselves go past it. -/
def write (writer : Writer) (octets : Bytes) : Writer :=
  let ready := if capacity < writer.pending.length + octets.length then writer.flush else writer
  if capacity ≤ octets.length then { ready with written := ready.written ++ octets }
  else { ready with pending := ready.pending ++ octets }

end Writer
end ZoneDemand
