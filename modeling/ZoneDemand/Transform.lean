import ZoneDemand.DatasetFile
import ZoneDemand.PickupTable.Preview
import ZoneDemand.Resample
import ZoneDemand.Split
import ZoneDemand.World

/-!
# The transforms as actions

Each step from staged records to dataset files, with the entries that it leaves in
the journal.  What a step computes is defined elsewhere without a world.
-/

namespace ZoneDemand
namespace Transform

def tableOf (pickups : List Pickup) : Action DataError PickupTable := do
  let table := PickupTable.ofList pickups
  Action.report (Pickup.preview "sorted by timestamp, geohash" table.rows)
  pure table

/-- Reads the table in the content of a staged file. -/
def readTable (content : Bytes) : Action DataError PickupTable := do
  let pickups ← Action.ofExcept (Pickup.ofBytes content)
  Action.report [.info "Parsed staged records" [("rows", toString pickups.length)]]
  Action.report (Pickup.preview "loaded" pickups)
  tableOf pickups

def loadTable (path : String) : Action DataError PickupTable := do
  let node ← Action.ofExcept (((← get).files.stat path).mapError (DataError.file path))
  Action.report [.info "Loading staged pickup records" [("path", path)]]
  match node with
  | .directory => throw (.reading .isDirectory)
  | .file content => readTable content

def enumerate (table : PickupTable) : Action DataError ZoneSet := do
  let zones ← Action.ofExcept (ZoneSet.ofTable table)
  Action.report [.info "Enumerated pickup zones"
    [("unique_geohash", toString zones.geohashes.length),
      ("min", zones.range.start.format), ("max", zones.range.finish.format)]]
  pure zones

def policyLabel : ResamplePolicy → String
  | .exact => "ExactMatch"
  | .bucketed => "Bucketed"

def resampledEntries (policy : ResamplePolicy) (r : Resampled) : Journal :=
  let drops := r.zones.filterMap fun zone =>
    if zone.dropped = 0 then none
    else some (.debug "Events not aligned to an interval boundary were dropped"
      [("geohash", zone.series.geohash), ("dropped", toString zone.dropped)])
  let stats := r.stats
  drops ++ [.info "Resampled pickup series"
    [("series", toString stats.series), ("intervals", toString stats.intervals),
      ("events_used", toString stats.used), ("events_dropped", toString stats.dropped),
      ("policy", policyLabel policy)]]

def resample (table : PickupTable) (zones : ZoneSet) (step : Step) (policy : ResamplePolicy) :
    Action DataError Resampled := do
  let r ← Action.ofExcept (ZoneDemand.resample table zones step policy)
  Action.report (resampledEntries policy r)
  pure r

def optionLabel : Option String → String
  | none => "None"
  | some text => s!"Some({quoted text})"

def splitEntry (split : Split) : Entry :=
  let size (series : List Series) : Nat := (series.head?.map Series.size).getD 0
  let trainEnd := (split.train.head?.bind Series.end?).map Instant.format
  .info "Split series into train and test sets"
    [("series", toString split.test.length), ("train_len", toString (size split.train)),
      ("test_len", toString (size split.test)), ("train_end", optionLabel trainEnd),
      ("prediction_length", toString split.horizon)]

def split (series : List Series) (horizon : Nat) : Action DataError Split := do
  let halves ← Action.ofExcept (Split.ofSeries series horizon)
  Action.report [splitEntry halves]
  pure halves

def writeDataset (path : String) (series : List Series) (categories : Bool) :
    Action DataError DatasetFile := do
  Action.report [.info "Saving dataset file"
    [("path", path), ("series", toString series.length)]]
  Action.onFiles fun tree => DatasetFile.write tree path series categories

end Transform
end ZoneDemand
