import ZoneDemand.Proofs.Resample.Moments
import ZoneDemand.SeriesRecord
import ZoneDemand.Split

/-!
# Datasets at moments

From pickups at any moments to the lines of both dataset files.  A line has no fraction of a
second, so series that start within one second start alike in the files.  What pickups at starts
of seconds come to is what they come to as pickups at instants.
-/

namespace ZoneDemand

/-- What pickups come to: the zones, their series with the accounts, and the lines of both
halves. -/
structure Dataset where
  zones : ZoneSet
  series : List Series
  stats : ResampleStats
  train : List String
  test : List String

def Dataset.ofPickups (pickups : List Pickup) (step : Step) (policy : ResamplePolicy)
    (horizon : Nat) (categories : Bool) : Except DataError Dataset := do
  let table := PickupTable.ofList pickups
  let zones ← ZoneSet.ofTable table
  let resampled ← resample table zones step policy
  let split ← Split.ofSeries resampled.series horizon
  pure {
    zones := zones
    series := resampled.series
    stats := resampled.stats
    train := recordLines categories split.train
    test := recordLines categories split.test }

namespace Fine

def Series.withoutTail (s : Series) (n : Nat) : Series :=
  { s with counts := s.counts.take (s.size - n) }

structure Split where
  train : List Series
  test : List Series
  horizon : Nat

/-- Fails on the first series that would lose all its intervals. -/
def Split.ofSeries (series : List Series) (horizon : Nat) : Except DataError Split :=
  match series.find? fun s => s.size ≤ horizon with
  | some short => .error (.tooShort short.geohash short.size horizon)
  | none => .ok ⟨series.map (·.withoutTail horizon), series, horizon⟩

def Series.record (s : Series) (category : Option UInt32) : SeriesRecord where
  start := s.start.instant.format
  target := s.counts
  cat := category.map fun c => [c]

/-- With categories, the category of a series is its position as a 32-bit number. -/
def recordLines (categories : Bool) (series : List Series) : List String :=
  series.mapIdx fun i s => (s.record (if categories then some (UInt32.ofNat i) else none)).encode

structure Dataset where
  zones : ZoneSet
  series : List Series
  stats : ResampleStats
  train : List String
  test : List String

def Dataset.ofPickups (pickups : List Pickup) (step : Duration) (policy : ResamplePolicy)
    (horizon : Nat) (categories : Bool) : Except DataError Dataset := do
  let pickups := sorted pickups
  let zones ← ZoneSet.ofPickups pickups
  let resampled ← resample pickups zones step policy
  let split ← Split.ofSeries resampled.series horizon
  pure {
    zones := zones
    series := resampled.series
    stats := resampled.stats
    train := recordLines categories split.train
    test := recordLines categories split.test }

end Fine

/-! ## Whole seconds -/

def Split.fine (split : Split) : Fine.Split :=
  ⟨split.train.map Series.fine, split.test.map Series.fine, split.horizon⟩

def Dataset.fine (dataset : Dataset) : Fine.Dataset :=
  ⟨dataset.zones.fine, dataset.series.map Series.fine, dataset.stats, dataset.train, dataset.test⟩

namespace Fine

theorem split_fine (series : List ZoneDemand.Series) (horizon : Nat) :
    Split.ofSeries (series.map ZoneDemand.Series.fine) horizon =
      (ZoneDemand.Split.ofSeries series horizon).map ZoneDemand.Split.fine := by
  have hfind : (series.map ZoneDemand.Series.fine).find? (fun s => s.size ≤ horizon) =
      (series.find? fun s => s.size ≤ horizon).map ZoneDemand.Series.fine :=
    List.find?_map
  unfold Split.ofSeries ZoneDemand.Split.ofSeries
  rw [hfind]
  cases series.find? fun s => s.size ≤ horizon with
  | some short => rfl
  | none =>
      simp only [Option.map_none, map_ok, ZoneDemand.Split.fine, List.map_map]
      rfl

theorem recordLines_fine (categories : Bool) (series : List ZoneDemand.Series) :
    recordLines categories (series.map ZoneDemand.Series.fine) =
      ZoneDemand.recordLines categories series := by
  rw [recordLines, ZoneDemand.recordLines, seriesRecords]
  simp only [List.mapIdx_eq_zipIdx_map, List.zipIdx_map, List.map_map]
  rfl

theorem series_fine (r : ZoneDemand.Resampled) :
    r.fine.series = r.series.map ZoneDemand.Series.fine := by
  rw [Resampled.series, ZoneDemand.Resampled.series, ZoneDemand.Resampled.fine, List.map_map,
    List.map_map]
  rfl

theorem stats_fine (r : ZoneDemand.Resampled) : r.fine.stats = r.stats := by
  simp only [Resampled.stats, ZoneDemand.Resampled.stats, ZoneDemand.Resampled.fine,
    List.map_map, List.length_map]
  rfl

/-- On starts of seconds and steps of whole milliseconds, pickups come to the same dataset. -/
theorem dataset_fine (pickups : List ZoneDemand.Pickup) (step : Step) (policy : ResamplePolicy)
    (horizon : Nat) (categories : Bool) :
    Dataset.ofPickups (pickups.map ZoneDemand.Pickup.fine) step.fine policy horizon categories =
      (ZoneDemand.Dataset.ofPickups pickups step policy horizon categories).map
        ZoneDemand.Dataset.fine := by
  simp only [Dataset.ofPickups, ZoneDemand.Dataset.ofPickups, sorted_fine, zones_fine]
  cases ZoneDemand.ZoneSet.ofTable (.ofList pickups) with
  | error e => rfl
  | ok zones =>
      simp only [map_ok, ok_bind, resample_fine]
      cases ZoneDemand.resample (.ofList pickups) zones step policy with
      | error e => rfl
      | ok resampled =>
          simp only [map_ok, ok_bind, series_fine, split_fine]
          cases ZoneDemand.Split.ofSeries resampled.series horizon with
          | error e => rfl
          | ok split =>
              simp only [map_ok, ok_bind, ZoneDemand.Split.fine, recordLines_fine, stats_fine]
              rfl

end Fine
end ZoneDemand
