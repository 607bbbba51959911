import ZoneDemand.Instant
import ZoneDemand.Step

/-!
# Series of counts

A series holds the pickups of one zone on a regular grid of intervals, without
gaps.  Interval `k` starts `k` steps after the start of the series.
-/

namespace ZoneDemand

structure Series where
  geohash : String
  start : Instant
  step : Step
  counts : List UInt64
deriving DecidableEq

namespace Series

def size (s : Series) : Nat := s.counts.length

def isEmpty (s : Series) : Bool := s.counts.isEmpty

/-- The start of interval `index`, unless the calendar does not reach it.  An
index has 63 bits. -/
def intervalStart? (s : Series) (index : Nat) : Option Instant :=
  if index ≤ 9223372036854775807 then s.start.add? (s.step.seconds * index) else none

def end? (s : Series) : Option Instant :=
  if s.isEmpty then none else s.intervalStart? (s.size - 1)

/-- The series without its last `n` intervals, empty if there are no more. -/
def withoutTail (s : Series) (n : Nat) : Series :=
  { s with counts := s.counts.take (s.size - n) }

@[simp] theorem size_withoutTail (s : Series) (n : Nat) :
    (s.withoutTail n).size = s.size - n := by
  simp [size, withoutTail]

end Series
end ZoneDemand
