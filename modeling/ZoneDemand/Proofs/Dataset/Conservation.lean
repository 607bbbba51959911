import ZoneDemand.Proofs.Dataset.Accounting
import ZoneDemand.Proofs.Resample.LeapSeconds
import ZoneDemand.Proofs.Zones.Sorting

/-!
# Bucketed counting loses nothing

Bucketed counting in the zones and the range of the same table counts every pickup and adds
every count up, leap seconds included, except for a leap second before the midnight that ends
the range when the range has no interval for it.
-/

namespace ZoneDemand

/-! ## What the counts of a zone add up to -/

/-- Adding to one of the counts adds as much to their sum, as long as nothing is cut off. -/
theorem sum_modify_addCapped {counts : List UInt64} {index : Nat} (hindex : index < counts.length)
    {count : UInt64} (hfits : (counts.map UInt64.toNat).sum + count.toNat ≤ maxCount) :
    ((counts.modify index (addCapped · count)).map UInt64.toNat).sum =
      (counts.map UInt64.toNat).sum + count.toNat := by
  have hsum : (counts.map UInt64.toNat).sum = ((counts.take index).map UInt64.toNat).sum +
      (counts[index].toNat + ((counts.drop (index + 1)).map UInt64.toNat).sum) := by
    rw [← List.sum_cons, ← List.map_cons, ← List.sum_append, ← List.map_append,
      List.getElem_cons_drop, List.take_append_drop]
  rw [List.modify_eq_take_cons_drop hindex, List.map_append, List.sum_append, List.map_cons,
    List.sum_cons, toNat_addCapped]
  omega

namespace Tally

variable {grid : Grid} {policy : ResamplePolicy} {tally : Tally} {before pickups : List Pickup}

/-- The counts add up to what has entered the intervals. -/
structure Conserves (grid : Grid) (policy : ResamplePolicy) (tally : Tally)
    (before : List Pickup) : Prop where
  length : tally.counts.length = grid.size
  sum : (tally.counts.map UInt64.toNat).sum =
    total (before.filter fun p => (grid.slot? policy p.time).isSome)

theorem conserves_empty (grid : Grid) (policy : ResamplePolicy) :
    Conserves grid policy (empty grid.size) [] := by
  constructor <;> simp [empty, total]

theorem Conserves.add (h : Conserves grid policy tally before) {pickup : Pickup}
    (hfits : total (before ++ [pickup]) ≤ maxCount) :
    Conserves grid policy (tally.add grid policy pickup) (before ++ [pickup]) := by
  rw [total_append] at hfits
  have hbefore := total_filter_le (fun p => (grid.slot? policy p.time).isSome) before
  unfold Tally.add
  cases hslot : grid.slot? policy pickup.time with
  | none =>
      refine ⟨h.length, ?_⟩
      rw [h.sum]
      simp [hslot]
  | some index =>
      have hindex : index < tally.counts.length := h.length ▸ Grid.lt_size_of_slot? hslot
      have hadded : (tally.counts.map UInt64.toNat).sum + pickup.count.toNat ≤ maxCount := by
        have hpickup : total [pickup] = pickup.count.toNat := by simp [total]
        rw [h.sum]
        omega
      constructor
      · simp [h.length]
      · simp only
        rw [sum_modify_addCapped hindex hadded, h.sum, List.filter_append, total_append]
        simp [hslot, total]

theorem Conserves.addAll (h : Conserves grid policy tally before)
    (hfits : total (before ++ pickups) ≤ maxCount) :
    Conserves grid policy (pickups.foldl (Tally.add grid policy) tally) (before ++ pickups) := by
  induction pickups generalizing tally before with
  | nil => simpa using h
  | cons pickup pickups ih =>
      rw [← List.singleton_append, ← List.append_assoc] at hfits ⊢
      have hfirst : total (before ++ [pickup]) ≤ maxCount := by
        rw [total_append] at hfits
        omega
      exact ih (h.add hfirst) hfits

theorem conserves_ofPickups (grid : Grid) (policy : ResamplePolicy)
    (hfits : total pickups ≤ maxCount) :
    Conserves grid policy (ofPickups grid policy pickups) pickups :=
  (conserves_empty grid policy).addAll hfits

end Tally

/-! ## The whole table -/

/-- Every row is used, and the counts of every zone add up if the sum fits a count. -/
structure LosesNothing (rows : List Pickup) (resampled : Resampled) : Prop where
  dropped : resampled.stats.dropped = 0
  used : resampled.stats.used = rows.length
  sum : ∀ s ∈ resampled.series, total (pickupsIn rows s.geohash) ≤ maxCount →
    (s.counts.map UInt64.toNat).sum = total (pickupsIn rows s.geohash)

def keptRows (range : TimeRange) (n : Int) (rows : List Pickup) : List Pickup :=
  rows.filter fun p => ¬range.Loses n p.time

theorem keptRows_eq_self {range : TimeRange} {n : Int} {rows : List Pickup}
    (hkept : ∀ p ∈ rows, ¬range.Loses n p.time) : keptRows range n rows = rows :=
  List.filter_eq_self.mpr fun p hp => decide_eq_true (hkept p hp)

def PickupTable.bucketed (table : PickupTable) (zones : ZoneSet) (step : Step) (n : Int) :
    Resampled :=
  ⟨zones.geohashes.map (ZoneCount.ofTable table ⟨zones.range, step, zones.range.intervals n⟩
    .bucketed), zones.range.intervals n⟩

theorem PickupTable.geohash_bucketed (table : PickupTable) (zones : ZoneSet) (step : Step)
    (n : Int) : (table.bucketed zones step n).series.map Series.geohash = zones.geohashes := by
  simp [bucketed, Resampled.series, ZoneCount.ofTable, Function.comp_def]

theorem resample_eq_bucketed {table : PickupTable} (hrows : table.rows ≠ []) (zones : ZoneSet)
    {n : Int} (hn : 1 ≤ n) {step : Step} (hstep : step.seconds = n) :
    resample table zones step .bucketed = .ok (table.bucketed zones step n) :=
  resample_of_intervalCount hrows
    (TimeRange.intervalCount_of_le hn hstep zones.start_le_finish) .bucketed

section Table

variable {table : PickupTable} {zones : ZoneSet} {step : Step} {n : Int}
  (hzones : ZoneSet.ofTable table = .ok zones) (hn : 1 ≤ n) (hstep : step.seconds = n)
include hzones hn hstep

theorem isSome_slot?_of_ofTable {p : Pickup} (hp : p ∈ table.rows) :
    (Grid.slot? ⟨zones.range, step, zones.range.intervals n⟩ .bucketed p.time).isSome =
      !decide (zones.range.Loses n p.time) := by
  obtain ⟨-, hearliest, hlatest⟩ := ZoneSet.of_ofTable hzones
  exact Grid.isSome_slot?_bucketed hn hstep ⟨hearliest.bound p hp, hlatest.bound p hp⟩

theorem sum_counts_bucketed {s : Series} (hs : s ∈ (table.bucketed zones step n).series)
    (hfits : total (pickupsIn table.rows s.geohash) ≤ maxCount) :
    (s.counts.map UInt64.toNat).sum =
      total (pickupsIn (keptRows zones.range n table.rows) s.geohash) := by
  rw [PickupTable.bucketed, Resampled.series, List.map_map, List.mem_map] at hs
  obtain ⟨zone, -, rfl⟩ := hs
  change total (pickupsIn table.rows zone) ≤ maxCount at hfits
  rw [← table.ofZone_eq] at hfits
  have hconserves := Tally.conserves_ofPickups ⟨zones.range, step, zones.range.intervals n⟩
    .bucketed hfits
  refine hconserves.sum.trans (congrArg total ?_)
  rw [table.ofZone_eq, pickupsIn, pickupsIn, keptRows, List.filter_filter, List.filter_filter]
  refine List.filter_congr fun p hp => ?_
  rw [isSome_slot?_of_ofTable hzones hn hstep hp, Bool.and_comm, decide_not]
  rfl

theorem stats_bucketed :
    (table.bucketed zones step n).stats =
      { series := zones.geohashes.length
        intervals := zones.range.intervals n
        used := (keptRows zones.range n table.rows).length
        dropped := table.rows.countP fun p => zones.range.Loses n p.time } := by
  obtain ⟨hzonesOf, -, -⟩ := ZoneSet.of_ofTable hzones
  have hzone : ∀ p ∈ table.rows, p.geohash ∈ zones.geohashes := fun p hp =>
    (hzonesOf.mem_iff p.geohash).mpr ⟨p, hp, rfl⟩
  refine (Resampled.stats_ofTable table ⟨zones.range, step, zones.range.intervals n⟩ .bucketed
    zones.nodup).trans ?_
  rw [keptRows, ← List.countP_eq_length_filter]
  congr 1
  all_goals
    refine List.countP_congr fun p hp => ?_
    simp [hzone p hp, isSome_slot?_of_ofTable hzones hn hstep hp]

theorem losesNothing_bucketed_iff :
    LosesNothing table.rows (table.bucketed zones step n) ↔
      ∀ p ∈ table.rows, ¬zones.range.Loses n p.time := by
  have hstats := stats_bucketed hzones hn hstep
  constructor
  · intro h p hp hlost
    have hdropped := h.dropped
    rw [hstats, List.countP_eq_zero] at hdropped
    exact hdropped p hp (decide_eq_true hlost)
  · intro hkept
    constructor
    · rw [hstats, List.countP_eq_zero]
      exact fun p hp => by simpa using hkept p hp
    · rw [hstats, keptRows_eq_self hkept]
    · intro s hs hfits
      rw [sum_counts_bucketed hzones hn hstep hs hfits, keptRows_eq_self hkept]

end Table

/-- Bucketed counting adds up all rows for which the range has an interval, so it loses nothing
exactly if that is every row. -/
theorem resample_bucketed_conserves {table : PickupTable} (hrows : table.rows ≠ []) {n : Int}
    (hn : 1 ≤ n) {step : Step} (hstep : Step.ofSeconds? n = some step) :
    ∃ zones resampled, ZoneSet.ofTable table = .ok zones ∧
      resample table zones step .bucketed = .ok resampled ∧
      ZonesOf table.rows (resampled.series.map Series.geohash) ∧
      resampled.stats.dropped = (table.rows.countP fun p => zones.range.Loses n p.time) ∧
      resampled.stats.used = (keptRows zones.range n table.rows).length ∧
      (∀ s ∈ resampled.series, total (pickupsIn table.rows s.geohash) ≤ maxCount →
        (s.counts.map UInt64.toNat).sum =
          total (pickupsIn (keptRows zones.range n table.rows) s.geohash)) ∧
      (LosesNothing table.rows resampled ↔ ∀ p ∈ table.rows, ¬zones.range.Loses n p.time) := by
  have hseconds := Step.seconds_of_ofSeconds? hstep
  obtain ⟨zones, hzones, hzonesOf, -, -⟩ := ZoneSet.ofTable_eq_ok hrows
  have hstats := stats_bucketed hzones hn hseconds
  refine ⟨zones, table.bucketed zones step n, hzones,
    resample_eq_bucketed hrows zones hn hseconds, ?_, congrArg ResampleStats.dropped hstats,
    congrArg ResampleStats.used hstats, fun s hs => sum_counts_bucketed hzones hn hseconds hs,
    losesNothing_bucketed_iff hzones hn hseconds⟩
  rw [table.geohash_bucketed]
  exact hzonesOf

/-- Steps of whole minutes, and all others that have a factor in common with the minute, lose
nothing. -/
theorem resample_bucketed_of_factor {table : PickupTable} (hrows : table.rows ≠ []) {n : Int}
    (hn : 1 ≤ n) (hfactor : 2 ∣ n ∨ 3 ∣ n ∨ 5 ∣ n) {step : Step} (hstep : step.seconds = n) :
    ∃ zones resampled, ZoneSet.ofTable table = .ok zones ∧
      resample table zones step .bucketed = .ok resampled ∧ LosesNothing table.rows resampled := by
  obtain ⟨zones, hzones, -⟩ := ZoneSet.ofTable_eq_ok hrows
  have hkept := losesNothing_bucketed_iff hzones hn hstep
  exact ⟨zones, table.bucketed zones step n, hzones, resample_eq_bucketed hrows zones hn hstep,
    hkept.mpr fun p _ => TimeRange.not_loses hfactor p.time⟩

/-- Leap seconds at the ends of the last two minutes of a day, and the midnight after them. -/
def leapContent : Bytes :=
  Utf8.encode "2021-12-13 23:58:60,a,4,x\n2021-12-13 23:59:60,a,2,x\n2021-12-14 00:00:00,a,1,x\n"

def leapTable : PickupTable :=
  ⟨[⟨⟨1639439939, true, by decide, by decide⟩, "a", 4, "x"⟩,
    ⟨leapSecond, "a", 2, "x"⟩,
    ⟨⟨1639440000, false, by decide, by decide⟩, "a", 1, "x"⟩], by decide +kernel⟩

def leapZones : ZoneSet where
  geohashes := ["a"]
  range := ⟨⟨1639439939, true, by decide, by decide⟩, ⟨1639440000, false, by decide, by decide⟩⟩
  nodup := by decide
  start_le_finish := by decide

theorem leapTable_by_minutes :
    ∃ resampled, resample leapTable leapZones ⟨60000, by decide⟩ .bucketed = .ok resampled ∧
      LosesNothing leapTable.rows resampled := by
  have hleap : ZoneSet.ofTable leapTable = .ok leapZones := by rfl
  have hrows : leapTable.rows ≠ [] := by decide
  have hstep : Step.ofSeconds? 60 = some ⟨60000, by decide⟩ := rfl
  obtain ⟨zones, resampled, hzones, hresample, -, -, -, -, hiff⟩ :=
    resample_bucketed_conserves hrows (by decide) hstep
  rw [hleap, Except.ok.injEq] at hzones
  subst hzones
  exact ⟨resampled, hresample, hiff.mpr (by decide)⟩

/-- The second row is sixty-one seconds after the first, the third only sixty. -/
theorem leapTable_by_61_seconds :
    PickupTable.ofBytes leapContent = .ok leapTable ∧ ZoneSet.ofTable leapTable = .ok leapZones ∧
    ∃ resampled, resample leapTable leapZones ⟨61000, by decide⟩ .bucketed = .ok resampled ∧
      resampled.stats = ⟨1, 1, 2, 1⟩ ∧ ¬LosesNothing leapTable.rows resampled := by
  have hload : Pickup.ofBytes leapContent = .ok leapTable.rows := by decide +kernel
  refine ⟨?_, by rfl, _, rfl, by decide +kernel, ?_⟩
  · rw [PickupTable.ofBytes, hload]
    exact congrArg Except.ok leapTable.ofList_rows
  · intro h
    have hdropped := h.dropped
    revert hdropped
    decide

end ZoneDemand
