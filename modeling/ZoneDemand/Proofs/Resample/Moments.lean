import Mathlib.Data.Prod.Lex
import Mathlib.Data.String.Basic
import ZoneDemand.Proofs.Instant.Moments
import ZoneDemand.Proofs.Machine
import ZoneDemand.Resample

/-!
# Resampling at moments

Here pickups happen at any moments and a step is any duration, of which only the whole seconds
count.  Where the moments are starts of seconds and the steps are of whole milliseconds, the
zones, the series and the starts of their intervals are those of resampling at instants.
-/

namespace ZoneDemand

namespace Fine

structure Pickup where
  time : Moment
  geohash : String
  count : UInt64
  location : String

/-- Pickups are sorted by time, then by geohash. -/
def Pickup.key (p : Pickup) : Moment ×ₗ String := toLex (p.time, p.geohash)

/-- The pickups in order; those with the same time and geohash stay in the order in which they
come. -/
def sorted (pickups : List Pickup) : List Pickup := pickups.mergeSort fun p q => p.key ≤ q.key

theorem sorted_perm (pickups : List Pickup) : (sorted pickups).Perm pickups :=
  List.mergeSort_perm pickups _

theorem pairwise_sorted (pickups : List Pickup) :
    (sorted pickups).Pairwise fun p q => p.key ≤ q.key := by
  have hpairwise : (sorted pickups).Pairwise fun p q => decide (p.key ≤ q.key) = true := by
    apply List.pairwise_mergeSort
    · intro p q r hpq hqr
      exact decide_eq_true ((of_decide_eq_true hpq).trans (of_decide_eq_true hqr))
    · intro p q
      simpa using le_total p.key q.key
  exact hpairwise.imp of_decide_eq_true

/-- The closed range from `start` to `finish`. -/
structure TimeRange where
  start : Moment
  finish : Moment

structure ZoneSet where
  geohashes : List String
  range : TimeRange

structure Series where
  geohash : String
  start : Moment
  step : Duration
  counts : List UInt64

/-- The boundaries `start`, `start + step`, … up to the end of the range, as a 64-bit number. -/
def TimeRange.intervalCount (range : TimeRange) (step : Duration) : Except DataError Nat :=
  if step.seconds ≤ 0 then .error (.step step.seconds)
  else
    let steps := (range.finish.secondsSince range.start).tdiv step.seconds
    .ok ((steps + 1) % 18446744073709551616).toNat

/-- The zones of pickups in the order of their first pickups, and the range of all times. -/
def ZoneSet.ofPickups : List Pickup → Except DataError ZoneSet
  | [] => .error .emptyTable
  | first :: rest =>
      .ok {
        geohashes := distinct ((first :: rest).map Pickup.geohash)
        range.start := (rest.map Pickup.time).foldl min first.time
        range.finish := (rest.map Pickup.time).foldl max first.time }

namespace Series

def size (s : Series) : Nat := s.counts.length

/-- The start of interval `k`, through the conversions of a machine: an index that is no signed
number, an offset that is none and one that no duration has all give nothing, and so does a start
that the calendar does not reach. -/
def intervalStart? (s : Series) (k : Nat) : Option Moment := do
  let index ← Machine.signed? k
  let offset ← Machine.signed? (s.step.seconds * index)
  if -Machine.longest ≤ offset ∧ offset ≤ Machine.longest then s.start.add? offset else none

def end? (s : Series) : Option Moment :=
  if s.size = 0 then none else s.intervalStart? (s.size - 1)

end Series

structure Grid where
  range : TimeRange
  step : Duration
  size : Nat

/-- The interval in which the policy counts a pickup of time `t`. -/
def Grid.slot? (grid : Grid) (policy : ResamplePolicy) (t : Moment) : Option Nat :=
  if t < grid.range.start ∨ grid.range.finish < t then none
  else
    let offset := t.secondsSince grid.range.start
    if policy = .exact ∧ offset.tmod grid.step.seconds ≠ 0 then none
    else
      let index := (offset.tdiv grid.step.seconds % 18446744073709551616).toNat
      if index < grid.size then some index else none

def add (grid : Grid) (policy : ResamplePolicy) (tally : Tally) (pickup : Pickup) : Tally :=
  match grid.slot? policy pickup.time with
  | some index =>
      { tally with counts := tally.counts.modify index (addCapped · pickup.count) }
  | none => { tally with dropped := tally.dropped + 1 }

/-- One zone's series, with the numbers of its pickups that were counted and not. -/
structure ZoneCount where
  series : Series
  used : Nat
  dropped : Nat

def ZoneCount.ofPickups (pickups : List Pickup) (grid : Grid) (policy : ResamplePolicy)
    (geohash : String) : ZoneCount :=
  let inZone := pickups.filter fun pickup => pickup.geohash == geohash
  let tally := inZone.foldl (add grid policy) (Tally.empty grid.size)
  { series := ⟨geohash, grid.range.start, grid.step, tally.counts⟩
    used := inZone.length - tally.dropped
    dropped := tally.dropped }

/-- The zones in the order of their categories, all on `intervals` intervals. -/
structure Resampled where
  zones : List ZoneCount
  intervals : Nat

def Resampled.series (r : Resampled) : List Series := r.zones.map ZoneCount.series

/-- Pickups of geohashes that are no zone appear in neither number. -/
def Resampled.stats (r : Resampled) : ResampleStats where
  series := r.zones.length
  intervals := r.intervals
  used := (r.zones.map ZoneCount.used).foldr (· + ·) 0
  dropped := (r.zones.map ZoneCount.dropped).foldr (· + ·) 0

/-- Counts pickups in the given zones. -/
def resample (pickups : List Pickup) (zones : ZoneSet) (step : Duration)
    (policy : ResamplePolicy) : Except DataError Resampled :=
  if pickups.isEmpty then .error .emptyTable
  else
    match zones.range.intervalCount step with
    | .error e => .error e
    | .ok size =>
        .ok ⟨zones.geohashes.map (ZoneCount.ofPickups pickups ⟨zones.range, step, size⟩ policy),
          size⟩

end Fine

/-! ## Whole seconds -/

def Pickup.fine (pickup : Pickup) : Fine.Pickup :=
  ⟨pickup.time.fine, pickup.geohash, pickup.count, pickup.location⟩

def TimeRange.fine (range : TimeRange) : Fine.TimeRange := ⟨range.start.fine, range.finish.fine⟩

def ZoneSet.fine (zones : ZoneSet) : Fine.ZoneSet := ⟨zones.geohashes, zones.range.fine⟩

def Series.fine (s : Series) : Fine.Series := ⟨s.geohash, s.start.fine, s.step.fine, s.counts⟩

def Grid.fine (grid : Grid) : Fine.Grid := ⟨grid.range.fine, grid.step.fine, grid.size⟩

def ZoneCount.fine (zone : ZoneCount) : Fine.ZoneCount :=
  ⟨zone.series.fine, zone.used, zone.dropped⟩

def Resampled.fine (r : Resampled) : Fine.Resampled := ⟨r.zones.map ZoneCount.fine, r.intervals⟩

/-- No duration is as long as this, and the calendar is shorter still. -/
theorem Instant.add?_of_far {t : Instant} {n : Int}
    (hfar : n < -Machine.longest ∨ Machine.longest < n) : t.add? n = none := by
  have hrange := t.inRange
  unfold Machine.longest at hfar
  unfold add? ofSeconds?
  rw [if_neg (by omega)]
  split
  · exact dif_neg (by omega)
  · exact dif_neg (by omega)

namespace Fine

/-! ## Resampling at whole seconds -/

theorem sorted_fine (pickups : List ZoneDemand.Pickup) :
    sorted (pickups.map ZoneDemand.Pickup.fine) =
      (PickupTable.ofList pickups).rows.map ZoneDemand.Pickup.fine := by
  refine (List.map_mergeSort fun p _ q _ => ?_).symm
  have hsame : p.time.fine = q.time.fine ↔ p.time = q.time := by simp [Instant.fine]
  rw [Bool.eq_iff_iff, decide_eq_true_eq, Prod.Lex.le_iff]
  change _ ↔ p.time.fine < q.time.fine ∨ p.time.fine = q.time.fine ∧ p.geohash ≤ q.geohash
  rw [Moment.fine_lt_iff, hsame]
  simp [ZoneDemand.Pickup.le]

theorem foldl_fine {op : Instant → Instant → Instant} {fineOp : Moment → Moment → Moment}
    (hop : ∀ a b, (op a b).fine = fineOp a.fine b.fine) (first : Instant)
    (rest : List ZoneDemand.Pickup) :
    ((rest.map ZoneDemand.Pickup.fine).map Pickup.time).foldl fineOp first.fine =
      (rest.foldl (fun t pickup => op t pickup.time) first).fine := by
  induction rest generalizing first with
  | nil => rfl
  | cons pickup rest ih =>
      rw [List.map_cons, List.map_cons, List.foldl_cons, List.foldl_cons, ← ih, hop]
      rfl

theorem zones_fine (table : PickupTable) :
    ZoneSet.ofPickups (table.rows.map ZoneDemand.Pickup.fine) =
      (ZoneDemand.ZoneSet.ofTable table).map ZoneDemand.ZoneSet.fine := by
  unfold ZoneDemand.ZoneSet.ofTable
  split
  · rename_i hrows
    rw [hrows]
    rfl
  · rename_i first rest hrows
    have hstart := foldl_fine Moment.fine_min first.time rest
    have hfinish := foldl_fine Moment.fine_max first.time rest
    have hnames : ((first :: rest).map ZoneDemand.Pickup.fine).map Pickup.geohash =
        (first :: rest).map ZoneDemand.Pickup.geohash := by
      rw [List.map_map]
      rfl
    rw [hrows, List.map_cons, ZoneSet.ofPickups, ← List.map_cons, hnames]
    change Except.ok (ZoneSet.mk _ ⟨_, _⟩) = _
    rw [show (ZoneDemand.Pickup.fine first).time = first.time.fine from rfl, hstart, hfinish]
    rfl

theorem intervalCount_fine (range : ZoneDemand.TimeRange) (step : Step) :
    range.fine.intervalCount step.fine = range.intervalCount step := by
  unfold TimeRange.intervalCount ZoneDemand.TimeRange.intervalCount
  simp [TimeRange.fine]

section Grid

variable (grid : ZoneDemand.Grid) (policy : ResamplePolicy)

theorem slot?_fine (t : Instant) : grid.fine.slot? policy t.fine = grid.slot? policy t := by
  unfold Grid.slot? ZoneDemand.Grid.slot?
  simp [Grid.fine, TimeRange.fine]

theorem add_fine (tally : Tally) (pickup : ZoneDemand.Pickup) :
    add grid.fine policy tally pickup.fine = tally.add grid policy pickup := by
  unfold add Tally.add
  rw [show pickup.fine.time = pickup.time.fine from rfl, slot?_fine]
  rfl

theorem zoneCount_fine (table : PickupTable) (geohash : String) :
    ZoneCount.ofPickups (table.rows.map ZoneDemand.Pickup.fine) grid.fine policy geohash =
      (ZoneDemand.ZoneCount.ofTable table grid policy geohash).fine := by
  have hzone : ((table.rows.map ZoneDemand.Pickup.fine).filter fun pickup =>
      pickup.geohash == geohash) = (table.ofZone geohash).map ZoneDemand.Pickup.fine :=
    List.filter_map
  unfold ZoneCount.ofPickups
  simp only [hzone, List.foldl_map, List.length_map, add_fine]
  rfl

end Grid

/-- On starts of seconds and steps of whole milliseconds, resampling at moments is resampling. -/
theorem resample_fine (table : PickupTable) (zones : ZoneDemand.ZoneSet) (step : Step)
    (policy : ResamplePolicy) :
    resample (table.rows.map ZoneDemand.Pickup.fine) zones.fine step.fine policy =
      (ZoneDemand.resample table zones step policy).map ZoneDemand.Resampled.fine := by
  have hcount := intervalCount_fine zones.range step
  unfold resample ZoneDemand.resample ZoneDemand.Grid.ofRange
  rw [List.isEmpty_map, show zones.fine.range = zones.range.fine from rfl, hcount]
  by_cases hempty : table.rows.isEmpty
  · simp [PickupTable.isEmpty, hempty]
  · simp only [PickupTable.isEmpty, hempty]
    cases zones.range.intervalCount step with
    | error e => rfl
    | ok size =>
        have hzones : (fun geohash => ZoneCount.ofPickups (table.rows.map ZoneDemand.Pickup.fine)
            ⟨zones.range.fine, step.fine, size⟩ policy geohash) =
              fun geohash => (ZoneDemand.ZoneCount.ofTable table ⟨zones.range, step, size⟩ policy
                geohash).fine :=
          funext fun geohash => zoneCount_fine ⟨zones.range, step, size⟩ policy table geohash
        simp only [Bool.false_eq_true, if_false, map_ok, Resampled.fine, List.map_map]
        exact congrArg (fun f => Except.ok (Resampled.mk (zones.geohashes.map f) size)) hzones

/-- At starts of seconds, the zones of a table and what is counted in any zones are those at
instants. -/
structure AgreesAtSeconds (table : PickupTable) : Prop where
  zones : ZoneSet.ofPickups (table.rows.map ZoneDemand.Pickup.fine) =
    (ZoneDemand.ZoneSet.ofTable table).map ZoneDemand.ZoneSet.fine
  resample : ∀ zones step policy,
    resample (table.rows.map ZoneDemand.Pickup.fine) zones.fine (Step.fine step) policy =
      (ZoneDemand.resample table zones step policy).map ZoneDemand.Resampled.fine

theorem agreesAtSeconds (table : PickupTable) : AgreesAtSeconds table :=
  ⟨zones_fine table, resample_fine table⟩

theorem intervalStart?_fine (s : ZoneDemand.Series) (k : Nat) :
    s.fine.intervalStart? k = (s.intervalStart? k).map Instant.fine := by
  unfold Series.intervalStart? ZoneDemand.Series.intervalStart?
  simp only [ZoneDemand.Series.fine, Step.seconds_fine, Moment.add?_fine, Option.bind_eq_bind]
  by_cases hk : k ≤ 9223372036854775807
  · have hindex : Machine.signed? (k : Int) = some (k : Int) :=
      Machine.signed?_of_bounds (by unfold Machine.maxSigned; omega)
        (by unfold Machine.maxSigned; omega)
    rw [if_pos hk, hindex, Option.bind_some]
    generalize s.step.seconds * (k : Int) = offset
    by_cases hnear : -Machine.longest ≤ offset ∧ offset ≤ Machine.longest
    · have hsigned : Machine.signed? offset = some offset := by
        unfold Machine.longest at hnear
        exact Machine.signed?_of_bounds (by unfold Machine.maxSigned; omega)
          (by unfold Machine.maxSigned; omega)
      rw [hsigned, Option.bind_some, if_pos hnear]
    · rw [Instant.add?_of_far (by omega)]
      rcases Machine.signed?_cases offset with hsigned | hsigned
      · rw [hsigned, Option.bind_some, if_neg hnear]
        rfl
      · rw [hsigned]
        rfl
  · have hindex : Machine.signed? (k : Int) = none := if_neg (by unfold Machine.maxSigned; omega)
    rw [if_neg hk, hindex]
    rfl

theorem end?_fine (s : ZoneDemand.Series) : s.fine.end? = s.end?.map Instant.fine := by
  have hempty : s.fine.size = 0 ↔ s.isEmpty = true :=
    List.length_eq_zero_iff.trans List.isEmpty_iff.symm
  unfold Series.end? ZoneDemand.Series.end?
  simp only [intervalStart?_fine, hempty]
  split <;> rfl

/-! ## Zones and series of pickups -/

theorem ZoneSet.of_ofPickups {pickups : List Pickup} {zones : ZoneSet}
    (hzones : ofPickups pickups = .ok zones) :
    zones.range.start ∈ pickups.map Pickup.time ∧ zones.range.finish ∈ pickups.map Pickup.time ∧
      zones.range.start ≤ zones.range.finish := by
  cases pickups with
  | nil => simp [ofPickups] at hzones
  | cons first rest =>
      rw [ofPickups, Except.ok.injEq] at hzones
      subst hzones
      let times := rest.map Pickup.time
      have hmin : (first.time :: times).min? = some (times.foldl min first.time) :=
        List.min?_cons'
      have hmax : (first.time :: times).max? = some (times.foldl max first.time) :=
        List.max?_cons'
      obtain ⟨hstart, hleast⟩ := List.min?_eq_some_iff.mp hmin
      have hfinish := List.max?_mem hmax
      exact ⟨hstart, hfinish, hleast _ hfinish⟩

theorem ZoneSet.nodup_ofPickups {pickups : List Pickup} {zones : ZoneSet}
    (hzones : ofPickups pickups = .ok zones) : zones.geohashes.Nodup := by
  cases pickups with
  | nil => simp [ofPickups] at hzones
  | cons first rest =>
      rw [ofPickups, Except.ok.injEq] at hzones
      subst hzones
      exact nodup_distinct _

theorem Grid.lt_size_of_slot? {grid : Grid} {policy : ResamplePolicy} {t : Moment} {k : Nat}
    (hslot : grid.slot? policy t = some k) : k < grid.size := by
  unfold slot? at hslot
  grind

theorem length_foldl_add (grid : Grid) (policy : ResamplePolicy) (tally : Tally)
    (pickups : List Pickup) :
    (pickups.foldl (add grid policy) tally).counts.length = tally.counts.length := by
  induction pickups generalizing tally with
  | nil => rfl
  | cons pickup rest ih =>
      rw [List.foldl_cons, ih]
      unfold add
      split
      · exact List.length_modify _ _ _
      · rfl

theorem size_ofPickups (pickups : List Pickup) (grid : Grid) (policy : ResamplePolicy)
    (geohash : String) :
    (ZoneCount.ofPickups pickups grid policy geohash).series.size = grid.size :=
  (length_foldl_add grid policy _ _).trans List.length_replicate

theorem TimeRange.intervalCount_of_short {range : TimeRange} {step : Duration}
    (hshort : step.seconds ≤ 0) : range.intervalCount step = .error (.step step.seconds) :=
  if_pos hshort

theorem TimeRange.intervalCount_of_long {range : TimeRange} {step : Duration}
    (hlong : 1 ≤ step.seconds) : ∃ size, range.intervalCount step = .ok size :=
  ⟨_, if_neg (by omega)⟩

theorem TimeRange.one_le_of_intervalCount {range : TimeRange} {step : Duration} {size : Nat}
    (hcount : range.intervalCount step = .ok size) : 1 ≤ step.seconds := by
  by_contra hshort
  rw [intervalCount_of_short (by omega)] at hcount
  contradiction

theorem resample_eq_ok_iff {pickups : List Pickup} {zones : ZoneSet} {step : Duration}
    {policy : ResamplePolicy} {r : Resampled} :
    resample pickups zones step policy = .ok r ↔ pickups ≠ [] ∧
      ∃ size, zones.range.intervalCount step = .ok size ∧
        r = ⟨zones.geohashes.map (ZoneCount.ofPickups pickups ⟨zones.range, step, size⟩ policy),
          size⟩ := by
  unfold resample
  by_cases hempty : pickups = []
  · simp [hempty]
  · rw [if_neg (mt List.isEmpty_iff.mp hempty)]
    cases zones.range.intervalCount step with
    | error e => simp
    | ok size => simp [hempty, eq_comm]

end Fine
end ZoneDemand
