import ZoneDemand.Proofs.Dataset.Meaning
import ZoneDemand.Proofs.Zones.Sorting

/-!
# Later pickups extend a dataset

Pickups that come after all others are sorted behind them, so the zones seen before keep
their categories and the range keeps its start.  No later pickup is counted in an interval
that ends by the old end of the range, and the last old interval is such an interval under
the exact policy, while a bucket may still be filling up.
-/

namespace ZoneDemand

/-- The counts that later pickups leave alone. -/
def ResamplePolicy.settled (policy : ResamplePolicy) (counts : List UInt64) : List UInt64 :=
  match policy with
  | .exact => counts
  | .bucketed => counts.dropLast

def ResamplePolicy.settledSize (policy : ResamplePolicy) (size : Nat) : Nat :=
  match policy with
  | .exact => size
  | .bucketed => size - 1

theorem ResamplePolicy.settled_eq_take (policy : ResamplePolicy) (counts : List UInt64) :
    policy.settled counts = counts.take (policy.settledSize counts.length) := by
  cases policy with
  | exact => exact List.take_length.symm
  | bucketed => exact List.dropLast_eq_take

theorem ResamplePolicy.settledSize_le (policy : ResamplePolicy) (size : Nat) :
    policy.settledSize size ≤ size := by
  cases policy with
  | exact => exact Nat.le_refl size
  | bucketed => exact Nat.sub_le size 1

/-- The later series has the settled counts of the earlier one, and others after them. -/
structure Series.ContinuedBy (policy : ResamplePolicy) (s t : Series) : Prop where
  geohash : t.geohash = s.geohash
  start : t.start = s.start
  counts : policy.settled s.counts <+: t.counts

/-! ## The zones and the range -/

theorem ZoneSet.geohashes_of_ofTable {table : PickupTable} {zones : ZoneSet}
    (hzones : ofTable table = .ok zones) :
    zones.geohashes = distinct (table.rows.map Pickup.geohash) := by
  unfold ofTable at hzones
  split at hzones
  · simp at hzones
  · rename_i first rest hcons
    rw [Except.ok.injEq] at hzones
    rw [← hzones, hcons]

theorem distinct_isPrefix_append (names others : List String) :
    distinct names <+: distinct (names ++ others) := by
  unfold distinct
  rw [List.eraseDups_append]
  exact List.prefix_append _ _

theorem Earliest.unique {pickups : List Pickup} {s t : Instant} (hs : Earliest pickups s)
    (ht : Earliest pickups t) : s = t := by
  obtain ⟨p, hp, hptime⟩ := hs.attained
  obtain ⟨q, hq, hqtime⟩ := ht.attained
  have hst : s ≤ t := hqtime ▸ hs.bound q hq
  have hts : t ≤ s := hptime ▸ ht.bound p hp
  exact Instant.rank_injective (Int.le_antisymm hst hts)

theorem Earliest.append_later {pickups later : List Pickup} {t : Instant}
    (ht : Earliest pickups t) (hlater : ∀ p ∈ pickups, ∀ q ∈ later, p.time < q.time) :
    Earliest (pickups ++ later) t := by
  obtain ⟨p, hp, htime⟩ := ht.attained
  refine ⟨⟨p, List.mem_append_left later hp, htime⟩, fun q hq => ?_⟩
  rcases List.mem_append.mp hq with hq | hq
  · exact ht.bound q hq
  · rw [← htime]
    exact Int.le_of_lt (hlater p hp q hq)

theorem Latest.le_of_subset {pickups others : List Pickup} {s t : Instant}
    (hs : Latest pickups s) (ht : Latest others t) (hsubset : pickups ⊆ others) : s ≤ t := by
  obtain ⟨p, hp, htime⟩ := hs.attained
  rw [← htime]
  exact ht.bound p (hsubset hp)

theorem TimeRange.size_le_size {range other : TimeRange} {n : Int} (hn : 1 ≤ n)
    (hstart : other.start = range.start)
    (hfinish : range.finish.seconds ≤ other.finish.seconds) : range.size n ≤ other.size n := by
  have hquotient : (range.finish.seconds - range.start.seconds) / n ≤
      (other.finish.seconds - range.start.seconds) / n :=
    Int.ediv_le_ediv (by omega) (by omega)
  unfold size
  rw [hstart]
  omega

/-! ## The counts -/

/-- Nothing later than the range is counted in a settled interval of it. -/
theorem ResamplePolicy.Counts.le_finish {policy : ResamplePolicy} {range : TimeRange}
    {n : Int} {k : Nat} {t : Instant} (h : policy.Counts range.start n k t) (hn : 1 ≤ n)
    (hordered : range.start.seconds ≤ range.finish.seconds)
    (hk : k < policy.settledSize (range.size n)) : t.seconds ≤ range.finish.seconds := by
  cases policy with
  | exact =>
      have htime : t.seconds = range.start.seconds + k * n := h
      have hboundary := (TimeRange.lt_size_iff hn hordered).mp hk
      omega
  | bucketed =>
      -- The next interval is in the range as well, and begins where this one ends.
      have hwindow : t.seconds < range.start.seconds + (k + 1) * n := h.2
      have hnext : k + 1 < range.size n := Nat.add_lt_of_lt_sub hk
      have hboundary := (TimeRange.lt_size_iff hn hordered).mp hnext
      rw [Int.natCast_add, Int.natCast_one] at hboundary
      omega

section Later

variable {pickups later : List Pickup} {range : TimeRange} {n : Int}
  (hlatest : Latest pickups range.finish)
  (hlater : ∀ p ∈ pickups, ∀ q ∈ later, p.time < q.time)
  (hregular : ∀ p ∈ pickups ++ later, p.time.leap = false)
include hlatest hlater hregular

theorem finish_lt_of_later {q : Pickup} (hq : q ∈ later) :
    range.finish.seconds < q.time.seconds := by
  obtain ⟨p, hp, htime⟩ := hlatest.attained
  have hpregular := hregular p (List.mem_append_left later hp)
  have hqregular := hregular q (List.mem_append_right pickups hq)
  have hnot : ¬q.time ≤ p.time := Int.not_le.mpr (hlater p hp q hq)
  rw [Instant.le_iff_seconds hqregular hpregular] at hnot
  rw [← htime]
  omega

theorem counted_append_later {policy : ResamplePolicy} {k : Nat} (hn : 1 ≤ n)
    (hordered : range.start.seconds ≤ range.finish.seconds)
    (hk : k < policy.settledSize (range.size n)) (zone : String) :
    counted (pickups ++ later) zone policy range.start n k =
      counted pickups zone policy range.start n k := by
  have hnone : counted later zone policy range.start n k = [] := by
    apply List.filter_eq_nil_iff.mpr
    intro q hq
    rw [decide_eq_true_eq]
    intro hcounts
    have hbefore := hcounts.le_finish hn hordered hk
    have hafter := finish_lt_of_later hlatest hlater hregular (mem_pickupsIn.mp hq).1
    omega
  have hsplit : counted (pickups ++ later) zone policy range.start n k =
      counted pickups zone policy range.start n k ++ counted later zone policy range.start n k := by
    simp only [counted, pickupsIn, List.filter_append]
  rw [hsplit, hnone, List.append_nil]

end Later

theorem PickupTable.map_geohash_zoneSeries (table : PickupTable) (range : TimeRange) (step : Step)
    (n : Int) (policy : ResamplePolicy) (zones : List String) :
    (zones.map (table.zoneSeries range step n policy)).map Series.geohash = zones := by
  rw [List.map_map]
  exact List.map_id zones

theorem PickupTable.start_of_mem_zoneSeries {table : PickupTable} {range : TimeRange} {step : Step}
    {n : Int} {policy : ResamplePolicy} {zones : List String} {s : Series}
    (hs : s ∈ zones.map (table.zoneSeries range step n policy)) : s.start = range.start := by
  obtain ⟨zone, -, rfl⟩ := List.mem_map.mp hs
  rfl

section Tables

variable {table whole : PickupTable} {later : List Pickup} {zones extended : ZoneSet}
  (hwhole : whole.rows = table.rows ++ later)
  (hlater : ∀ p ∈ table.rows, ∀ q ∈ later, p.time < q.time)
  (hzones : ZoneSet.ofTable table = .ok zones) (hextended : ZoneSet.ofTable whole = .ok extended)
include hwhole hzones hextended

theorem geohashes_isPrefix : zones.geohashes <+: extended.geohashes := by
  rw [ZoneSet.geohashes_of_ofTable hzones, ZoneSet.geohashes_of_ofTable hextended, hwhole,
    List.map_append]
  exact distinct_isPrefix_append _ _

include hlater

theorem start_of_extended : extended.range.start = zones.range.start := by
  obtain ⟨-, hearliest, -⟩ := ZoneSet.of_ofTable hzones
  obtain ⟨-, hwholeEarliest, -⟩ := ZoneSet.of_ofTable hextended
  rw [hwhole] at hwholeEarliest
  exact hwholeEarliest.unique (hearliest.append_later hlater)

/-- A zone's series over the whole table continues its series over the earlier rows. -/
theorem zoneSeries_continuedBy (hregular : ∀ p ∈ whole.rows, p.time.leap = false) {n : Int}
    (hn : 1 ≤ n) {step : Step} (hstep : step.seconds = n) (policy : ResamplePolicy)
    (zone : String) :
    (table.zoneSeries zones.range step n policy zone).ContinuedBy policy
      (whole.zoneSeries extended.range step n policy zone) := by
  have hstart := start_of_extended hwhole hlater hzones hextended
  obtain ⟨-, hearliest, hlatest⟩ := ZoneSet.of_ofTable hzones
  obtain ⟨-, hwholeEarliest, hwholeLatest⟩ := ZoneSet.of_ofTable hextended
  have hsubset : table.rows ⊆ whole.rows := by
    rw [hwhole]
    exact List.subset_append_left table.rows later
  have htableRegular : ∀ p ∈ table.rows, p.time.leap = false := fun p hp =>
    hregular p (hsubset hp)
  have hstartRegular := hearliest.leap_eq_false htableRegular
  have hfinishRegular := hlatest.leap_eq_false htableRegular
  have hordered := (Instant.le_iff_seconds hstartRegular hfinishRegular).mp zones.start_le_finish
  have hfinish := (Instant.le_iff_seconds hfinishRegular
    (hwholeLatest.leap_eq_false hregular)).mp (hlatest.le_of_subset hwholeLatest hsubset)
  have hsize := TimeRange.size_le_size hn hstart hfinish
  have hsettled := policy.settledSize_le (zones.range.size n)
  have hcounts := countsOf_zoneSeries hn hstep htableRegular hearliest hlatest policy zone
  have hwholeCounts := countsOf_zoneSeries hn hstep hregular hwholeEarliest hwholeLatest policy zone
  rw [hstart, hwhole] at hwholeCounts
  rw [hwhole] at hregular
  have htake := hcounts.take_eq hwholeCounts hsettled (Nat.le_trans hsettled hsize) fun k hk => by
    rw [counted_append_later hlatest hlater hregular hn hordered hk]
  constructor
  · rfl
  · exact hstart
  · rw [policy.settled_eq_take, hcounts.length, htake]
    exact List.take_prefix _ _

/-- Resampling the whole table answers the series of the earlier rows first, continued, and
then those of the later zones. -/
theorem resample_continues (hregular : ∀ p ∈ whole.rows, p.time.leap = false) {n : Int}
    (hn : 1 ≤ n) {step : Step} (hstep : step.seconds = n) (policy : ResamplePolicy) :
    ∃ resampled extendedResampled,
      resample table zones step policy = .ok resampled ∧
      resample whole extended step policy = .ok extendedResampled ∧
      resampled.series.map Series.geohash = zones.geohashes ∧
      extendedResampled.series.map Series.geohash = extended.geohashes ∧
      (∀ s ∈ resampled.series ++ extendedResampled.series, s.start = zones.range.start) ∧
      ∀ (i : Nat) (s : Series), resampled.series[i]? = some s →
        ∃ t, extendedResampled.series[i]? = some t ∧ s.ContinuedBy policy t := by
  have htableRegular : ∀ p ∈ table.rows, p.time.leap = false := by
    intro p hp
    apply hregular
    rw [hwhole]
    exact List.mem_append_left later hp
  obtain ⟨-, hearliest, hlatest⟩ := ZoneSet.of_ofTable hzones
  obtain ⟨-, hwholeEarliest, hwholeLatest⟩ := ZoneSet.of_ofTable hextended
  obtain ⟨resampled, hresample, hseries⟩ :=
    resample_eq_ok hn hstep htableRegular hearliest hlatest policy
  obtain ⟨extendedResampled, hextendedResample, hextendedSeries⟩ :=
    resample_eq_ok hn hstep hregular hwholeEarliest hwholeLatest policy
  refine ⟨resampled, extendedResampled, hresample, hextendedResample, ?_, ?_, ?_, ?_⟩
  · rw [hseries]
    exact table.map_geohash_zoneSeries _ _ _ _ _
  · rw [hextendedSeries]
    exact whole.map_geohash_zoneSeries _ _ _ _ _
  · intro s hs
    rw [hseries, hextendedSeries] at hs
    rcases List.mem_append.mp hs with hs | hs
    · exact PickupTable.start_of_mem_zoneSeries hs
    · rw [PickupTable.start_of_mem_zoneSeries hs]
      exact start_of_extended hwhole hlater hzones hextended
  · intro i s hs
    rw [hseries, List.getElem?_map, Option.map_eq_some_iff] at hs
    obtain ⟨zone, hzone, rfl⟩ := hs
    obtain ⟨hindex, hname⟩ := List.getElem?_eq_some_iff.mp hzone
    have hsame : extended.geohashes[i]? = some zone := by
      have hprefix := geohashes_isPrefix hwhole hzones hextended
      rw [List.prefix_iff_getElem?.mp hprefix i hindex, hname]
    refine ⟨_, by rw [hextendedSeries, List.getElem?_map, hsame]; rfl, ?_⟩
    exact zoneSeries_continuedBy hwhole hlater hzones hextended hregular hn hstep policy zone

end Tables

/-- Later pickups keep the zones with their categories, the start and all settled counts. -/
theorem ofList_append_continues {pickups later : List Pickup} (hrows : pickups ≠ [])
    (hlater : ∀ p ∈ pickups, ∀ q ∈ later, p.time < q.time)
    (hregular : ∀ p ∈ pickups ++ later, p.time.leap = false) {n : Int} (hn : 1 ≤ n) {step : Step}
    (hstep : Step.ofSeconds? n = some step) :
    ∃ zones extended, ZoneSet.ofTable (.ofList pickups) = .ok zones ∧
      ZoneSet.ofTable (.ofList (pickups ++ later)) = .ok extended ∧
      zones.geohashes <+: extended.geohashes ∧
      ∀ policy, ∃ resampled extendedResampled,
        resample (.ofList pickups) zones step policy = .ok resampled ∧
        resample (.ofList (pickups ++ later)) extended step policy = .ok extendedResampled ∧
        resampled.series.map Series.geohash = zones.geohashes ∧
        extendedResampled.series.map Series.geohash = extended.geohashes ∧
        (∀ s ∈ resampled.series ++ extendedResampled.series, s.start = zones.range.start) ∧
        ∀ (i : Nat) (s : Series), resampled.series[i]? = some s →
          ∃ t, extendedResampled.series[i]? = some t ∧ s.ContinuedBy policy t := by
  have hseconds := Step.seconds_of_ofSeconds? hstep
  have hperm := PickupTable.rows_ofList_perm pickups
  have hlaterPerm := PickupTable.rows_ofList_perm later
  have hwholePerm := PickupTable.rows_ofList_perm (pickups ++ later)
  have hwhole := PickupTable.rows_ofList_append hlater
  generalize PickupTable.ofList pickups = table at *
  generalize PickupTable.ofList (pickups ++ later) = whole at *
  generalize (PickupTable.ofList later).rows = laterRows at *
  have htableRows : table.rows ≠ [] := by
    intro hempty
    rw [hempty, List.nil_perm] at hperm
    exact hrows hperm
  have hwholeRows : whole.rows ≠ [] := by
    rw [hwhole]
    exact List.append_ne_nil_of_left_ne_nil htableRows laterRows
  have hwholeRegular : ∀ p ∈ whole.rows, p.time.leap = false := fun p hp =>
    hregular p (hwholePerm.mem_iff.mp hp)
  have hrowsLater : ∀ p ∈ table.rows, ∀ q ∈ laterRows, p.time < q.time := fun p hp q hq =>
    hlater p (hperm.mem_iff.mp hp) q (hlaterPerm.mem_iff.mp hq)
  obtain ⟨zones, hzones, -⟩ := ZoneSet.ofTable_eq_ok htableRows
  obtain ⟨extended, hextended, -⟩ := ZoneSet.ofTable_eq_ok hwholeRows
  refine ⟨zones, extended, hzones, hextended, ?_, ?_⟩
  · exact geohashes_isPrefix hwhole hzones hextended
  · exact resample_continues hwhole hrowsLater hzones hextended hwholeRegular hn hseconds

def earlyPickups : List Pickup :=
  [⟨⟨1639354020, false, by decide, by decide⟩, "b", 2, "x"⟩,
    ⟨midnight, "a", 1, "x"⟩]

/-- One more pickup in the first ten minutes, and a zone that was not seen before. -/
def latePickups : List Pickup :=
  [⟨twentyPast, "c", 3, "x"⟩,
    ⟨⟨1639354140, false, by decide, by decide⟩, "b", 4, "x"⟩]

theorem earlyPickups_continued :
    ∃ zones extended, ZoneSet.ofTable (.ofList earlyPickups) = .ok zones ∧
      ZoneSet.ofTable (.ofList (earlyPickups ++ latePickups)) = .ok extended ∧
      zones.geohashes <+: extended.geohashes ∧
      ∀ policy, ∃ resampled extendedResampled,
        resample (.ofList earlyPickups) zones ⟨600000, by decide⟩ policy = .ok resampled ∧
        resample (.ofList (earlyPickups ++ latePickups)) extended ⟨600000, by decide⟩ policy =
          .ok extendedResampled ∧
        resampled.series.map Series.geohash = zones.geohashes ∧
        extendedResampled.series.map Series.geohash = extended.geohashes ∧
        (∀ s ∈ resampled.series ++ extendedResampled.series, s.start = zones.range.start) ∧
        ∀ (i : Nat) (s : Series), resampled.series[i]? = some s →
          ∃ t, extendedResampled.series[i]? = some t ∧ s.ContinuedBy policy t := by
  have hstep : Step.ofSeconds? 600 = some ⟨600000, by decide⟩ := rfl
  exact ofList_append_continues (by decide) (by decide) (by decide) (by decide) hstep

end ZoneDemand
