/-!
# Progress of a download

Progress is told in whole percent of an object, and only when the percentage
grows.  Octets are counted in 64-bit words.
-/

namespace ZoneDemand

structure PercentTracker where
  total : UInt64
  consumed : UInt64
  percent : UInt8
deriving DecidableEq, Repr

namespace PercentTracker

def ofTotal (total : UInt64) : PercentTracker := ⟨total, 0, 0⟩

/-- The octets consumed so far, at most the largest word. -/
def consume (tracker : PercentTracker) (octets : UInt64) : UInt64 :=
  if tracker.consumed + octets < tracker.consumed then 18446744073709551615
  else tracker.consumed + octets

/-- Counts octets and tells the percentage if it has grown.  The product with 100
is a 64-bit word too. -/
def advance (tracker : PercentTracker) (octets : UInt64) : PercentTracker × Option UInt8 :=
  if tracker.total = 0 then (tracker, none)
  else
    let consumed := tracker.consume octets
    let percent := (min consumed tracker.total * 100 / tracker.total).toUInt8
    if tracker.percent < percent then
      ({ tracker with consumed := consumed, percent := percent }, some percent)
    else ({ tracker with consumed := consumed }, none)

end PercentTracker

inductive Progress where
  | started (key : String) (size : Nat)
  | percent (key : String) (percent : UInt8)
  | finished (key : String) (bytes : Nat)
deriving DecidableEq, Repr

end ZoneDemand
