import ZoneDemand.Proofs.Resample.Counts
import ZoneDemand.Proofs.Resample.Moments

/-!
# What resampling answers

Resampling answers where there are pickups and the range has intervals.  It has a series for each
zone, on all intervals of the range, and each pickup of a zone is in one of the two numbers of its
statistics.
-/

namespace ZoneDemand.Fine

variable {pickups others : List Pickup}

def ofZone (pickups : List Pickup) (zone : String) : List Pickup :=
  pickups.filter fun p => p.geohash = zone

def Grid.slotOf (grid : Grid) (policy : ResamplePolicy) (p : Pickup) : Option Nat :=
  grid.slot? policy p.time

/-! ## One zone -/

/-- The numbers of the zone's pickups: in each interval, in any of them and in none. -/
structure ZoneCount.Of (pickups : List Pickup) (grid : Grid) (policy : ResamplePolicy)
    (zone : String) (z : ZoneCount) : Prop where
  geohash : z.series.geohash = zone
  start : z.series.start = grid.range.start
  step : z.series.step = grid.step
  counts : Tally.Holds (grid.slotOf policy) Pickup.count grid.size ⟨z.series.counts, z.dropped⟩
    (ofZone pickups zone)
  used : z.used = (ofZone pickups zone).countP fun p => (grid.slotOf policy p).isSome

namespace ZoneCount

theorem of_ofPickups (pickups : List Pickup) (grid : Grid) (policy : ResamplePolicy)
    (zone : String) : (ofPickups pickups grid policy zone).Of pickups grid policy zone := by
  have hcounts : Tally.Holds (grid.slotOf policy) Pickup.count grid.size
      ((ofZone pickups zone).foldl (add grid policy) (Tally.empty grid.size))
      (ofZone pickups zone) := Tally.holds_foldl grid.size (ofZone pickups zone)
  have hlength := List.length_eq_countP_add_countP (l := ofZone pickups zone)
    fun p => (grid.slotOf policy p).isSome
  have hzone : (pickups.filter fun p => p.geohash == zone) = ofZone pickups zone := rfl
  have hdropped := hcounts.dropped
  refine ⟨rfl, rfl, rfl, hcounts, ?_⟩
  simp only [Bool.not_eq_true, Bool.decide_eq_false] at hlength
  simp only [ofPickups, hzone]
  omega

theorem Of.unique {grid : Grid} {policy : ResamplePolicy} {zone : String} {z w : ZoneCount}
    (hz : z.Of pickups grid policy zone)
    (hw : w.Of pickups grid policy zone) : z = w := by
  obtain ⟨hcounts, hdropped⟩ := Tally.mk.inj (hz.counts.unique hw.counts)
  obtain ⟨⟨geohash, start, step, counts⟩, used, dropped⟩ := z
  obtain ⟨⟨geohash', start', step', counts'⟩, used', dropped'⟩ := w
  simp only [mk.injEq, Series.mk.injEq]
  exact ⟨⟨hz.geohash.trans hw.geohash.symm, hz.start.trans hw.start.symm,
    hz.step.trans hw.step.symm, hcounts⟩, hz.used.trans hw.used.symm, hdropped⟩

theorem count_of_perm (hperm : pickups.Perm others) (grid : Grid) (policy : ResamplePolicy)
    (zone : String) :
    ofPickups pickups grid policy zone = ofPickups others grid policy zone := by
  have hzone : (ofZone pickups zone).Perm (ofZone others zone) := hperm.filter _
  have h := of_ofPickups pickups grid policy zone
  exact Of.unique ⟨h.geohash, h.start, h.step, h.counts.of_perm hzone,
    h.used.trans (hzone.countP_eq _)⟩ (of_ofPickups others grid policy zone)

end ZoneCount

/-! ## All zones -/

/-- One series for each zone, in the order of the zones, with a count for each of the `size`
intervals of the range. -/
structure Resampled.Covers (r : Resampled) (zones : ZoneSet) (step : Duration) (size : Nat) :
    Prop where
  intervals : r.intervals = size
  geohashes : r.series.map Series.geohash = zones.geohashes
  start : ∀ s ∈ r.series, s.start = zones.range.start
  step : ∀ s ∈ r.series, s.step = step
  size : ∀ s ∈ r.series, s.size = size

def counted (pickups : List Pickup) (zones : ZoneSet) (step : Duration) (size : Nat)
    (policy : ResamplePolicy) : Resampled :=
  ⟨zones.geohashes.map (ZoneCount.ofPickups pickups ⟨zones.range, step, size⟩ policy), size⟩

section Counted

variable (pickups) (zones : ZoneSet) (step : Duration) (size : Nat) (policy : ResamplePolicy)

theorem series_counted :
    (counted pickups zones step size policy).series = zones.geohashes.map fun zone =>
      (ZoneCount.ofPickups pickups ⟨zones.range, step, size⟩ policy zone).series :=
  List.map_map

theorem covers_counted : (counted pickups zones step size policy).Covers zones step size := by
  constructor
  · rfl
  · rw [series_counted, List.map_map]
    exact List.map_id zones.geohashes
  all_goals
    intro s hs
    rw [series_counted, List.mem_map] at hs
    obtain ⟨zone, -, rfl⟩ := hs
  · rfl
  · rfl
  · exact size_ofPickups pickups ⟨zones.range, step, size⟩ policy zone

theorem stats_counted (hnodup : zones.geohashes.Nodup) :
    (counted pickups zones step size policy).stats =
      { series := zones.geohashes.length
        intervals := size
        used := pickups.countP fun p => decide (p.geohash ∈ zones.geohashes) &&
          (Grid.slotOf ⟨zones.range, step, size⟩ policy p).isSome
        dropped := pickups.countP fun p => decide (p.geohash ∈ zones.geohashes) &&
          !(Grid.slotOf ⟨zones.range, step, size⟩ policy p).isSome } := by
  have hof := ZoneCount.of_ofPickups pickups ⟨zones.range, step, size⟩ policy
  have hdropped := fun zone => (hof zone).counts.dropped
  simp only at hdropped
  simp only [counted, Resampled.stats, ← List.sum_eq_foldr, List.map_map, List.length_map,
    Function.comp_def, fun zone => (hof zone).used, hdropped, ofZone,
    sum_countP_zones Pickup.geohash _ hnodup]

end Counted

theorem counted_of_perm (hperm : pickups.Perm others) (zones : ZoneSet) (step : Duration)
    (size : Nat) (policy : ResamplePolicy) :
    counted pickups zones step size policy = counted others zones step size policy :=
  congrArg (Resampled.mk · size) (List.map_congr_left fun zone _ =>
    ZoneCount.count_of_perm hperm ⟨zones.range, step, size⟩ policy zone)

/-! ## When it answers -/

section Answers

variable {zones : ZoneSet} {step : Duration}

theorem resample_of_intervalCount {size : Nat} (hpickups : pickups ≠ [])
    (hcount : zones.range.intervalCount step = .ok size) (policy : ResamplePolicy) :
    resample pickups zones step policy = .ok (counted pickups zones step size policy) :=
  resample_eq_ok_iff.mpr ⟨hpickups, size, hcount, rfl⟩

theorem resample_of_perm (hperm : pickups.Perm others) (zones : ZoneSet) (step : Duration)
    (policy : ResamplePolicy) :
    resample pickups zones step policy = resample others zones step policy := by
  unfold resample
  rw [hperm.isEmpty_eq]
  cases zones.range.intervalCount step with
  | error e => rfl
  | ok size =>
      have hcounted := counted_of_perm hperm zones step size policy
      unfold counted at hcounted
      simp only [hcounted]

end Answers

/-! ## Zones of one night -/

def nightPickups : List Pickup :=
  [⟨midnight.threeTenths, "b", 4, "x"⟩, ⟨twentyPast.threeTenths, "c", 3, "x"⟩]

def nightZones : ZoneSet :=
  ⟨["b", "c"], midnight.threeTenths, twentyPast.threeTenths⟩

end ZoneDemand.Fine
