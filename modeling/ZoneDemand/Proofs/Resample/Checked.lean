import ZoneDemand.Proofs.Dataset.Moments
import ZoneDemand.Proofs.Resample.Answers

/-!
# Resampling in machine arithmetic

Here resampling, the split and the series' own computations are written out with the operations
of a machine, one by one, which stop with a fault where a number leaves its type, a divisor is
zero or an index lies outside a list.  For at most as many pickups as a machine counts, at any
moments, the zones of any others and all durations, they answer or fail as the computations with
unbounded numbers do, so that none ever meets a fault.

The time since the start of a range may be negative after a leap second, but not by a whole
second, so that no offset in seconds is.
-/

namespace ZoneDemand.Fine.Machine

open ZoneDemand.Machine

/-! ## The operations of a machine, one by one -/

/-- The time between two moments, which must be a duration. -/
def elapsed (t first : Moment) : Except Halt Duration :=
  if h : -9223372036854775807000000 ≤ t.since first ∧ t.since first ≤ 9223372036854775807000000
  then .ok ⟨t.since first, h⟩
  else .error (.fault .overflow)

def intervalCount (range : TimeRange) (d : Duration) : Except Halt Nat :=
  if d.seconds ≤ 0 then .error (.failed (.step d.seconds))
  else do
    let span ← elapsed range.finish range.start
    let last ← index (← quotient span.seconds d.seconds)
    unsigned (last + 1)

def onBoundary (policy : ResamplePolicy) (offset seconds : Int) : Except Halt Bool :=
  match policy with
  | .exact => (remainder offset seconds).map fun rest => decide (rest = 0)
  | .bucketed => .ok true

def slot (range : TimeRange) (seconds : Int) (size : Nat) (t : Moment)
    (policy : ResamplePolicy) : Except Halt (Option Nat) :=
  if t < range.start ∨ range.finish < t then .ok none
  else do
    let offset ← elapsed t range.start
    if ← onBoundary policy offset.seconds seconds then
      let k ← index (← quotient offset.seconds seconds)
      return if k < size then some k else none
    else return none

def addSaturating (a b : UInt64) : Except Halt UInt64 :=
  (unsigned (min (a.toNat + b.toNat) maxCount)).map UInt64.ofNat

def add (range : TimeRange) (seconds : Int) (size : Nat) (policy : ResamplePolicy)
    (tally : Tally) (pickup : Pickup) : Except Halt Tally := do
  match ← slot range seconds size pickup.time policy with
  | some k =>
      let counts ← update tally.counts k (addSaturating · pickup.count)
      return { tally with counts := counts }
  | none =>
      let dropped ← unsigned (tally.dropped + 1)
      return { tally with dropped := dropped }

def countZone (pickups : List Pickup) (range : TimeRange) (d : Duration) (size : Nat)
    (policy : ResamplePolicy) (geohash : String) : Except Halt ZoneCount := do
  let inZone := pickups.filter fun p => p.geohash == geohash
  let tally ← inZone.foldlM (add range d.seconds size policy) (Tally.empty size)
  let used ← minus inZone.length tally.dropped
  return ⟨⟨geohash, range.start, d, tally.counts⟩, used, tally.dropped⟩

/-- The series of the zones one after the other, whose numbers are added to the statistics. -/
def countZones (pickups : List Pickup) (range : TimeRange) (d : Duration) (size : Nat)
    (policy : ResamplePolicy) :
    List String → ResampleStats → Except Halt (List Series × ResampleStats)
  | [], stats => .ok ([], stats)
  | geohash :: rest, stats => do
      let zone ← countZone pickups range d size policy geohash
      let used ← unsigned (stats.used + zone.used)
      let dropped ← unsigned (stats.dropped + zone.dropped)
      let (series, stats) ←
        countZones pickups range d size policy rest { stats with used := used, dropped := dropped }
      return (zone.series :: series, stats)

def resample (pickups : List Pickup) (zones : ZoneSet) (d : Duration) (policy : ResamplePolicy) :
    Except Halt (List Series × ResampleStats) :=
  if pickups.isEmpty then .error (.failed .emptyTable)
  else do
    let size ← intervalCount zones.range d
    countZones pickups zones.range d size policy zones.geohashes
      ⟨zones.geohashes.length, size, 0, 0⟩

def end? (s : Series) : Option Moment :=
  match minus s.size 1 with
  | .ok last => s.intervalStart? last
  | .error _ => none

def withoutTail (s : Series) (n : Nat) : Except Halt Series := do
  let counts ← slice s.counts (s.size - n)
  return { s with counts := counts }

def split (series : List Series) (horizon : Nat) : Except Halt Fine.Split :=
  match series.find? fun s => s.size ≤ horizon with
  | some short => .error (.failed (.tooShort short.geohash short.size horizon))
  | none => do
      let train ← series.mapM (withoutTail · horizon)
      return ⟨train, series, horizon⟩

/-! ## Offsets and intervals -/

section Offset

variable {first t : Moment} (hle : first ≤ t)
include hle

theorem elapsed_of_le : ∃ d, elapsed t first = .ok d ∧ d.seconds = t.secondsSince first := by
  have hgt := Moment.since_gt hle
  have hseconds := Instant.since_le_seconds t.instant first.instant
  have hlow := first.instant.inRange
  have hhigh := t.instant.inRange
  have hnanos := t.nanos_lt
  have hbounds : -9223372036854775807000000 ≤ t.since first ∧
      t.since first ≤ 9223372036854775807000000 := by
    refine ⟨by omega, ?_⟩
    unfold Moment.since
    omega
  exact ⟨⟨t.since first, hbounds⟩, dif_pos hbounds, rfl⟩

theorem secondsSince_bounds : 0 ≤ t.secondsSince first ∧
    t.secondsSince first + 1 < 18446744073709551616 ∧ t.secondsSince first ≤ maxSigned := by
  have hseconds := Moment.secondsSince_le hle
  have hlow := first.instant.inRange
  have hhigh := t.instant.inRange
  unfold maxSigned
  exact ⟨Moment.secondsSince_nonneg hle, by omega, by omega⟩

end Offset

section Range

variable {range : TimeRange} {t : Moment} {d : Duration}

theorem intervalCount_eq (hordered : range.start ≤ range.finish) :
    intervalCount range d = (range.intervalCount d).mapError .failed := by
  unfold intervalCount Fine.TimeRange.intervalCount
  by_cases hpos : d.seconds ≤ 0
  · rw [if_pos hpos, if_pos hpos]
    rfl
  · obtain ⟨span, helapsed, hspan⟩ := elapsed_of_le hordered
    obtain ⟨hnonneg, hfits, hbound⟩ := secondsSince_bounds hordered
    have hn : 1 ≤ d.seconds := by omega
    obtain ⟨hquotient, hle⟩ := tdiv_bounds hn hnonneg
    rw [if_neg hpos, if_neg hpos, helapsed, ok_bind, hspan, quotient_of_nonneg hn hnonneg hbound,
      ok_bind, index_tdiv hn hnonneg hbound, ok_bind, unsigned_of_le (by unfold maxCount; omega)]
    simp only
    rw [Int.emod_eq_of_lt (by omega) (by omega), Int.toNat_add hquotient (by decide)]
    rfl

theorem onBoundary_eq {offset n : Int} (hn : 1 ≤ n) (hnonneg : 0 ≤ offset)
    (hbound : offset ≤ maxSigned) (policy : ResamplePolicy) :
    onBoundary policy offset n = .ok (decide ¬(policy = .exact ∧ offset.tmod n ≠ 0)) := by
  cases policy with
  | exact => simp [onBoundary, remainder_of_nonneg hn hnonneg hbound]
  | bucketed => simp [onBoundary]

theorem slot_eq {size : Nat} (hn : 1 ≤ d.seconds) (policy : ResamplePolicy) :
    slot range d.seconds size t policy = .ok ((Fine.Grid.mk range d size).slot? policy t) := by
  unfold slot Fine.Grid.slot?
  by_cases houtside : t < range.start ∨ range.finish < t
  · simp only [houtside, if_true]
  · have hafter : range.start ≤ t := not_lt.mp fun hbefore => houtside (.inl hbefore)
    obtain ⟨offset, helapsed, hoffset⟩ := elapsed_of_le hafter
    obtain ⟨hnonneg, hfits, hbound⟩ := secondsSince_bounds hafter
    obtain ⟨hquotient, hle⟩ := tdiv_bounds hn hnonneg
    have hsmall : (t.secondsSince range.start).tdiv d.seconds < 18446744073709551616 := by omega
    simp only [houtside, if_false, helapsed, ok_bind, hoffset, onBoundary_eq hn hnonneg hbound,
      quotient_of_nonneg hn hnonneg hbound, index_tdiv hn hnonneg hbound,
      Int.emod_eq_of_lt hquotient hsmall]
    by_cases hdropped : policy = .exact ∧ (t.secondsSince range.start).tmod d.seconds ≠ 0
    · simp [hdropped]
    · simp [hdropped]

end Range

/-! ## Counts -/

theorem addSaturating_eq (a b : UInt64) : addSaturating a b = .ok (addCapped a b) := by
  rw [addSaturating, unsigned_of_le (Nat.min_le_right _ _), map_ok, addCapped]

section Counts

variable {range : TimeRange} {d : Duration} {size : Nat} (hn : 1 ≤ d.seconds)
  {policy : ResamplePolicy} {tally : Tally} (hlength : tally.counts.length = size)
include hn hlength

theorem add_eq (hfits : tally.dropped + 1 ≤ maxCount) (pickup : Pickup) :
    add range d.seconds size policy tally pickup =
      .ok (Fine.add ⟨range, d, size⟩ policy tally pickup) := by
  unfold add Fine.add
  rw [slot_eq hn, ok_bind]
  cases hslot : Fine.Grid.slot? ⟨range, d, size⟩ policy pickup.time with
  | none => simp only [unsigned_of_le hfits, ok_bind, pure_eq_ok]
  | some k =>
      have hk : k < tally.counts.length := hlength ▸ Fine.Grid.lt_size_of_slot? hslot
      simp only [update_of_lt hk fun c => addSaturating_eq c pickup.count, ok_bind, pure_eq_ok]

/-- The list of counts keeps its length, and at most every pickup is dropped. -/
theorem foldlM_add {pickups : List Pickup}
    (hfits : tally.dropped + pickups.length ≤ maxCount) :
    pickups.foldlM (add range d.seconds size policy) tally =
      .ok (pickups.foldl (Fine.add ⟨range, d, size⟩ policy) tally) := by
  induction pickups generalizing tally with
  | nil => rfl
  | cons pickup rest ih =>
      rw [List.length_cons] at hfits
      rw [List.foldlM_cons, List.foldl_cons, add_eq hn hlength (by omega), ok_bind]
      have hnext : (Fine.add ⟨range, d, size⟩ policy tally pickup).counts.length = size ∧
          (Fine.add ⟨range, d, size⟩ policy tally pickup).dropped ≤ tally.dropped + 1 := by
        unfold Fine.add
        split
        · simp [hlength]
        · simp [hlength]
      exact ih hnext.1 (by omega)

end Counts

section Zones

variable {pickups : List Pickup} (hrows : pickups.length ≤ maxCount) {range : TimeRange}
  {d : Duration} (hn : 1 ≤ d.seconds) {size : Nat} {policy : ResamplePolicy}
include hrows hn

theorem countZone_eq (geohash : String) :
    countZone pickups range d size policy geohash =
      .ok (ZoneCount.ofPickups pickups ⟨range, d, size⟩ policy geohash) := by
  have hinZone : (pickups.filter fun p => p.geohash == geohash).length ≤ maxCount :=
    Nat.le_trans (List.length_filter_le _ _) hrows
  have hof := ZoneCount.of_ofPickups pickups ⟨range, d, size⟩ policy geohash
  have hdropped : ((pickups.filter fun p => p.geohash == geohash).foldl
      (Fine.add ⟨range, d, size⟩ policy) (Tally.empty size)).dropped ≤
        (pickups.filter fun p => p.geohash == geohash).length :=
    Nat.le_trans (Nat.le_of_eq hof.counts.dropped) List.countP_le_length
  have htally : (pickups.filter fun p => p.geohash == geohash).foldlM
      (add range d.seconds size policy) (Tally.empty size) =
        .ok ((pickups.filter fun p => p.geohash == geohash).foldl
          (Fine.add ⟨range, d, size⟩ policy) (Tally.empty size)) :=
    foldlM_add hn List.length_replicate (by simpa [Tally.empty] using hinZone)
  unfold countZone
  simp only [htally, ok_bind, minus_of_le hdropped, pure_eq_ok]
  rfl

/-- No prefix of the zones has larger numbers than all of them. -/
theorem countZones_eq {geohashes : List String} {stats : ResampleStats}
    (hused : stats.used + ((geohashes.map (ZoneCount.ofPickups pickups ⟨range, d, size⟩
      policy)).map ZoneCount.used).sum ≤ maxCount)
    (hdropped : stats.dropped + ((geohashes.map (ZoneCount.ofPickups pickups ⟨range, d, size⟩
      policy)).map ZoneCount.dropped).sum ≤ maxCount) :
    countZones pickups range d size policy geohashes stats =
      .ok ((geohashes.map (ZoneCount.ofPickups pickups ⟨range, d, size⟩ policy)).map
          ZoneCount.series,
        { stats with
          used := stats.used + ((geohashes.map (ZoneCount.ofPickups pickups ⟨range, d, size⟩
            policy)).map ZoneCount.used).sum
          dropped := stats.dropped + ((geohashes.map (ZoneCount.ofPickups pickups
            ⟨range, d, size⟩ policy)).map ZoneCount.dropped).sum }) := by
  induction geohashes generalizing stats with
  | nil => rfl
  | cons geohash rest ih =>
      simp only [List.map_cons, List.sum_cons, ← Nat.add_assoc] at hused hdropped ⊢
      have hrest := @ih { stats with
        used := stats.used + (ZoneCount.ofPickups pickups ⟨range, d, size⟩ policy geohash).used
        dropped := stats.dropped +
          (ZoneCount.ofPickups pickups ⟨range, d, size⟩ policy geohash).dropped } hused hdropped
      simp only [countZones, countZone_eq hrows hn, ok_bind,
        unsigned_of_le (Nat.le_trans (Nat.le_add_right _ _) hused),
        unsigned_of_le (Nat.le_trans (Nat.le_add_right _ _) hdropped), hrest, pure_eq_ok]

end Zones

/-! ## No fault -/

section Outcome

variable {pickups : List Pickup} {zones : ZoneSet} {d : Duration} {policy : ResamplePolicy}
  (hrows : pickups.length ≤ maxCount)

include hrows in
theorem countZones_all (hnodup : zones.geohashes.Nodup) (hn : 1 ≤ d.seconds) (size : Nat) :
    countZones pickups zones.range d size policy zones.geohashes
        ⟨zones.geohashes.length, size, 0, 0⟩ =
      .ok ((counted pickups zones d size policy).series,
        (counted pickups zones d size policy).stats) := by
  have hstats := stats_counted pickups zones d size policy hnodup
  -- Both numbers count pickups.
  have hused : (counted pickups zones d size policy).stats.used ≤ maxCount := by
    rw [hstats]
    exact Nat.le_trans List.countP_le_length hrows
  have hdropped : (counted pickups zones d size policy).stats.dropped ≤ maxCount := by
    rw [hstats]
    exact Nat.le_trans List.countP_le_length hrows
  rw [countZones_eq hrows hn (by rwa [Nat.zero_add]) (by rwa [Nat.zero_add])]
  simp only [Nat.zero_add, counted, Resampled.series, Resampled.stats, List.sum_eq_foldr,
    List.length_map]

variable {source : List Pickup} (hzones : ZoneSet.ofPickups source = .ok zones)
include hrows hzones

theorem resample_eq : resample pickups zones d policy =
    ((Fine.resample pickups zones d policy).map fun r => (r.series, r.stats)).mapError
      .failed := by
  obtain ⟨-, -, hordered⟩ := ZoneSet.of_ofPickups hzones
  unfold resample Fine.resample
  by_cases hempty : pickups.isEmpty
  · rw [if_pos hempty, if_pos hempty]
    rfl
  · rw [if_neg hempty, if_neg hempty, intervalCount_eq hordered]
    cases hcount : zones.range.intervalCount d with
    | error e => rfl
    | ok size =>
        exact countZones_all hrows (ZoneSet.nodup_ofPickups hzones)
          (TimeRange.one_le_of_intervalCount hcount) size

theorem resample_cases :
    (pickups = [] ∧ resample pickups zones d policy = .error (.failed .emptyTable)) ∨
    (pickups ≠ [] ∧ d.nanos < 1000000000 ∧
      resample pickups zones d policy = .error (.failed (.step d.seconds))) ∨
    (pickups ≠ [] ∧ 1000000000 ≤ d.nanos ∧
      ∃ series stats, resample pickups zones d policy = .ok (series, stats)) := by
  have hsecond := d.one_le_seconds_iff
  rw [resample_eq hrows hzones]
  by_cases hempty : pickups = []
  · subst hempty
    exact .inl ⟨rfl, rfl⟩
  · by_cases hlong : 1 ≤ d.seconds
    · obtain ⟨size, hcount⟩ : ∃ size, zones.range.intervalCount d = .ok size :=
        TimeRange.intervalCount_of_long hlong
      rw [resample_of_intervalCount hempty hcount]
      exact .inr (.inr ⟨hempty, hsecond.mp hlong, _, _, rfl⟩)
    · have hshort : d.seconds ≤ 0 := by omega
      rw [Fine.resample, if_neg (mt List.isEmpty_iff.mp hempty),
        TimeRange.intervalCount_of_short hshort]
      exact .inr (.inl ⟨hempty, by omega, rfl⟩)

end Outcome

theorem end?_eq (s : Series) : end? s = s.end? := by
  unfold end? minus Series.end?
  by_cases hsize : s.size = 0
  · rw [if_neg (by omega), if_pos hsize]
  · rw [if_pos (by omega), if_neg hsize]

theorem withoutTail_eq (s : Series) (n : Nat) : withoutTail s n = .ok (s.withoutTail n) := by
  unfold withoutTail Series.size
  rw [slice_of_le (Nat.sub_le _ _)]
  rfl

theorem split_eq (series : List Series) (horizon : Nat) :
    split series horizon = (Split.ofSeries series horizon).mapError .failed := by
  unfold split Split.ofSeries
  cases series.find? fun s => s.size ≤ horizon with
  | some short => rfl
  | none =>
      have htrain : series.mapM (withoutTail · horizon) =
          .ok (series.map (Series.withoutTail · horizon)) := by
        simp only [withoutTail_eq, ← pure_eq_ok, List.mapM_pure]
      simp only [htrain]
      rfl

/-- Resampling and all that is asked of a series meet no fault of the machine.  They answer or
fail as with unbounded numbers, and whether resampling fails depends on the pickups and the step
alone.  At starts of seconds, what is answered is what is answered at instants. -/
theorem resample_without_fault {source pickups : List Pickup} {zones : ZoneSet}
    (hzones : ZoneSet.ofPickups source = .ok zones) (hrows : pickups.length ≤ maxCount)
    (d : Duration) (policy : ResamplePolicy) :
    resample pickups zones d policy =
      ((Fine.resample pickups zones d policy).map fun r => (r.series, r.stats)).mapError
        .failed ∧
    (resample pickups zones d policy = .error (.failed .emptyTable) ↔ pickups = []) ∧
    (resample pickups zones d policy = .error (.failed (.step d.seconds)) ↔
      pickups ≠ [] ∧ d.nanos < 1000000000) ∧
    ((∃ series stats, resample pickups zones d policy = .ok (series, stats)) ↔
      pickups ≠ [] ∧ 1000000000 ≤ d.nanos) ∧
    (∀ series horizon, split series horizon = (Split.ofSeries series horizon).mapError .failed) ∧
    (∀ s : Series, end? s = s.end? ∧ ∀ n, withoutTail s n = .ok (s.withoutTail n)) ∧
    (∀ table, AgreesAtSeconds table) ∧
    (∀ series horizon, Split.ofSeries (series.map ZoneDemand.Series.fine) horizon =
      (ZoneDemand.Split.ofSeries series horizon).map ZoneDemand.Split.fine) ∧
    ∀ s : ZoneDemand.Series, s.fine.end? = s.end?.map Instant.fine ∧
      (∀ k, s.fine.intervalStart? k = (s.intervalStart? k).map Instant.fine) ∧
      ∀ n, s.fine.withoutTail n = (s.withoutTail n).fine := by
  refine ⟨resample_eq hrows hzones, ?_, ?_, ?_, split_eq, fun s => ⟨end?_eq s, withoutTail_eq s⟩,
    agreesAtSeconds, split_fine, fun s => ⟨end?_fine s, intervalStart?_fine s, fun _ => rfl⟩⟩
  all_goals
    rcases resample_cases hrows hzones with ⟨hempty, houtcome⟩ |
      ⟨hempty, hshort, houtcome⟩ | ⟨hempty, hlong, series, stats, houtcome⟩
  all_goals
    rw [houtcome]
    grind

/-! ## The widest range -/

def calendarStart : Instant := ⟨-8334601228800, false, by decide, by decide⟩

/-- The last nanosecond of the leap second that ends the calendar. -/
def calendarEnd : Moment :=
  ⟨⟨8210266876799, true, by decide, by decide⟩, 999999999, by decide⟩

/-- The first two counts meet in one interval, where they exceed the largest count. -/
def widestPickups : List Pickup :=
  [⟨calendarStart.fine, "a", 18446744073709551615, "x"⟩, ⟨calendarStart.fine, "a", 1, "x"⟩,
    ⟨calendarEnd, "a", 2, "x"⟩]

def widestZones : ZoneSet := ⟨["a"], calendarStart.fine, calendarEnd⟩

/-- Ten million million seconds and a half; the calendar is less than twice as long. -/
def wideStep : Duration := ⟨10000000000000500000000, by decide⟩

theorem widestPickups_without_fault :
    ZoneSet.ofPickups widestPickups = .ok widestZones ∧ widestPickups.length ≤ maxCount ∧
      resample widestPickups widestZones wideStep .bucketed =
        .ok ([⟨"a", calendarStart.fine, wideStep, [18446744073709551615, 2]⟩], ⟨1, 2, 3, 0⟩) := by
  have hzones : ZoneSet.ofPickups widestPickups = .ok widestZones := by rfl
  have hrows : widestPickups.length ≤ maxCount := by decide
  obtain ⟨heq, -⟩ := resample_without_fault hzones hrows wideStep .bucketed
  exact ⟨hzones, hrows, heq.trans (by rfl)⟩

/-- The last nanosecond of a leap second. -/
def lastNano : Moment := ⟨leapSecond, 999999999, by decide⟩

/-- The time to the midnight after it is negative, but not by a whole second. -/
example : ∃ t : Instant, lastNano < t.fine ∧ t.fine.since lastNano = -999999999 ∧
    t.fine.secondsSince lastNano = 0 :=
  ⟨⟨1639440000, false, by decide, by decide⟩, by decide⟩

end ZoneDemand.Fine.Machine
