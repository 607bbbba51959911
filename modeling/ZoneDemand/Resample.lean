import ZoneDemand.Series
import ZoneDemand.ZoneSet

/-!
# Resampling

Resampling counts the pickups of every zone on the intervals of a common range.
The exact policy counts a pickup only if its time is the start of an interval; the
bucketed policy counts it in the interval that contains it.  Counts that meet in
an interval are added up to the largest 64-bit number.
-/

namespace ZoneDemand

inductive ResamplePolicy where
  | exact
  | bucketed
deriving DecidableEq, Repr

/-- The sum of two counts, at most the largest count. -/
def addCapped (a b : UInt64) : UInt64 := UInt64.ofNat (min (a.toNat + b.toNat) maxCount)

structure Grid where
  range : TimeRange
  step : Step
  size : Nat

namespace Grid

def ofRange (range : TimeRange) (step : Step) : Except DataError Grid :=
  (range.intervalCount step).map fun size => ⟨range, step, size⟩

/-- The interval in which the policy counts a pickup of time `t`. -/
def slot? (grid : Grid) (policy : ResamplePolicy) (t : Instant) : Option Nat :=
  if t < grid.range.start ∨ grid.range.finish < t then none
  else
    let offset := t.since grid.range.start
    if policy = .exact ∧ offset.tmod grid.step.seconds ≠ 0 then none
    else
      let index := (offset.tdiv grid.step.seconds % 18446744073709551616).toNat
      if index < grid.size then some index else none

end Grid

/-- The counts of one zone and the pickups that entered none of them. -/
structure Tally where
  counts : List UInt64
  dropped : Nat
deriving DecidableEq, Repr

namespace Tally

def empty (size : Nat) : Tally := ⟨List.replicate size 0, 0⟩

def add (grid : Grid) (policy : ResamplePolicy) (tally : Tally) (pickup : Pickup) : Tally :=
  match grid.slot? policy pickup.time with
  | some index =>
      { tally with counts := tally.counts.modify index (addCapped · pickup.count) }
  | none => { tally with dropped := tally.dropped + 1 }

def ofPickups (grid : Grid) (policy : ResamplePolicy) (pickups : List Pickup) : Tally :=
  pickups.foldl (add grid policy) (empty grid.size)

end Tally

/-- One zone's series, with the numbers of its pickups that were counted and not. -/
structure ZoneCount where
  series : Series
  used : Nat
  dropped : Nat
deriving DecidableEq

def PickupTable.ofZone (table : PickupTable) (geohash : String) : List Pickup :=
  table.rows.filter fun pickup => pickup.geohash == geohash

def ZoneCount.ofTable
    (table : PickupTable) (grid : Grid) (policy : ResamplePolicy) (geohash : String) :
    ZoneCount :=
  let pickups := table.ofZone geohash
  let tally := Tally.ofPickups grid policy pickups
  { series := ⟨geohash, grid.range.start, grid.step, tally.counts⟩
    used := pickups.length - tally.dropped
    dropped := tally.dropped }

structure ResampleStats where
  series : Nat
  intervals : Nat
  used : Nat
  dropped : Nat
deriving DecidableEq, Repr

/-- The zones in the order of their categories, all on `intervals` intervals. -/
structure Resampled where
  zones : List ZoneCount
  intervals : Nat
deriving DecidableEq

namespace Resampled

def series (r : Resampled) : List Series := r.zones.map ZoneCount.series

/-- Pickups of geohashes that are no zone appear in neither number. -/
def stats (r : Resampled) : ResampleStats where
  series := r.zones.length
  intervals := r.intervals
  used := (r.zones.map ZoneCount.used).foldr (· + ·) 0
  dropped := (r.zones.map ZoneCount.dropped).foldr (· + ·) 0

end Resampled

/-- Counts the pickups of a table in the given zones. -/
def resample
    (table : PickupTable) (zones : ZoneSet) (step : Step) (policy : ResamplePolicy) :
    Except DataError Resampled :=
  if table.isEmpty then .error .emptyTable
  else
    match Grid.ofRange zones.range step with
    | .error e => .error e
    | .ok grid =>
        .ok ⟨zones.geohashes.map (ZoneCount.ofTable table grid policy), grid.size⟩

end ZoneDemand
