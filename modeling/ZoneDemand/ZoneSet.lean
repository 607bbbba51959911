import ZoneDemand.PickupTable
import ZoneDemand.Step

/-!
# Zones and the common time range

All zones of a table share the time range of the whole table.  A zone's position,
in the order of first appearance, is its category.
-/

namespace ZoneDemand

/-- The closed range from `start` to `finish`. -/
structure TimeRange where
  start : Instant
  finish : Instant
deriving DecidableEq

/-- The number of boundaries `start`, `start + step`, … up to the end of the range,
as a 64-bit number. -/
def TimeRange.intervalCount (range : TimeRange) (step : Step) : Except DataError Nat :=
  if step.seconds ≤ 0 then .error (.step step.seconds)
  else
    let steps := (range.finish.since range.start).tdiv step.seconds
    .ok ((steps + 1) % 18446744073709551616).toNat

/-- The distinct members of a list in the order of first appearance. -/
def distinct (names : List String) : List String := names.eraseDups

theorem nodup_distinct (names : List String) : (distinct names).Nodup := by
  induction hn : names.length using Nat.strongRecOn generalizing names with
  | ind n ih =>
      cases names with
      | nil => simp [distinct]
      | cons name rest =>
          have hshort : (rest.filter fun other => !other == name).length < n := by
            have := List.length_filter_le (fun other => !other == name) rest
            simp only [List.length_cons] at hn
            omega
          have hrest := ih _ hshort _ rfl
          simp only [distinct, List.eraseDups_cons, List.nodup_cons] at hrest ⊢
          exact ⟨by simp [List.mem_eraseDups], hrest⟩

/-- The distinct geohashes of a table and its time range. -/
structure ZoneSet where
  geohashes : List String
  range : TimeRange
  nodup : geohashes.Nodup
  start_le_finish : range.start ≤ range.finish

namespace ZoneSet

def earliest (first : Instant) (pickups : List Pickup) : Instant :=
  pickups.foldl (fun t pickup => t.min pickup.time) first

def latest (first : Instant) (pickups : List Pickup) : Instant :=
  pickups.foldl (fun t pickup => t.max pickup.time) first

theorem earliest_le (first : Instant) (pickups : List Pickup) :
    earliest first pickups ≤ first := by
  induction pickups generalizing first with
  | nil => exact Int.le_refl _
  | cons pickup rest ih =>
      have hstep : first.min pickup.time ≤ first := by
        unfold Instant.min
        split
        · exact Int.le_of_lt (by assumption)
        · exact Int.le_refl _
      exact Int.le_trans (ih (first.min pickup.time)) hstep

theorem le_latest (first : Instant) (pickups : List Pickup) :
    first ≤ latest first pickups := by
  induction pickups generalizing first with
  | nil => exact Int.le_refl _
  | cons pickup rest ih =>
      have hstep : first ≤ first.max pickup.time := by
        unfold Instant.max
        split
        · exact Int.le_refl _
        · exact Int.not_lt.1 (by assumption)
      exact Int.le_trans hstep (ih (first.max pickup.time))

def ofTable (table : PickupTable) : Except DataError ZoneSet :=
  match table.rows with
  | [] => .error .emptyTable
  | first :: rest =>
      .ok {
        geohashes := distinct ((first :: rest).map Pickup.geohash)
        range := ⟨earliest first.time rest, latest first.time rest⟩
        nodup := nodup_distinct _
        start_le_finish :=
          Int.le_trans (earliest_le first.time rest) (le_latest first.time rest) }

end ZoneSet
end ZoneDemand
