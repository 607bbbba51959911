import ZoneDemand.Proofs.Resample.Answers

/-!
# The two policies compared

On one grid the exact policy counts a pickup only where the bucketed one does, and it counts
all that lie a whole number of steps after the start of the range, whole seconds taken.  So the
two differ in the other pickups only: exact counting is bucketed counting without them.
-/

namespace ZoneDemand.Fine

/-! ## Aligned pickups -/

/-- The whole seconds from the start of the range are a whole number of steps. -/
def TimeRange.Aligned (range : TimeRange) (step : Duration) (t : Moment) : Prop :=
  step.seconds ∣ t.secondsSince range.start

instance (range : TimeRange) (step : Duration) (t : Moment) : Decidable (range.Aligned step t) :=
  inferInstanceAs (Decidable (_ ∣ _))

/-- The pickups without those that are not aligned. -/
def aligned (range : TimeRange) (step : Duration) (pickups : List Pickup) : List Pickup :=
  pickups.filter fun p => range.Aligned step p.time

theorem ofZone_aligned (range : TimeRange) (step : Duration) (pickups : List Pickup)
    (zone : String) :
    ofZone (aligned range step pickups) zone = aligned range step (ofZone pickups zone) :=
  List.filter_comm _ _ _

theorem Grid.slotOf_exact (grid : Grid) (p : Pickup) :
    grid.slotOf .exact p =
      if grid.range.Aligned grid.step p.time then grid.slotOf .bucketed p else none := by
  have haligned : grid.range.Aligned grid.step p.time ↔
      (p.time.secondsSince grid.range.start).tmod grid.step.seconds = 0 :=
    Int.dvd_iff_tmod_eq_zero
  unfold slotOf slot?
  by_cases houtside : p.time < grid.range.start ∨ grid.range.finish < p.time
  · simp [houtside]
  · by_cases hoffset : (p.time.secondsSince grid.range.start).tmod grid.step.seconds = 0 <;>
      simp [houtside, haligned, hoffset]

section Totals

variable (grid : Grid) (k : Nat) (pickups : List Pickup)

theorem totalAt_exact :
    totalAt (grid.slotOf .exact) Pickup.count k pickups =
      totalAt (grid.slotOf .bucketed) Pickup.count k (aligned grid.range grid.step pickups) := by
  have hfilter : (pickups.filter fun p => grid.slotOf .exact p = some k) =
      (aligned grid.range grid.step pickups).filter fun p => grid.slotOf .bucketed p = some k := by
    rw [aligned, List.filter_filter]
    refine List.filter_congr fun p _ => ?_
    rw [grid.slotOf_exact]
    by_cases haligned : grid.range.Aligned grid.step p.time <;> simp [haligned]
  rw [totalAt, hfilter, totalAt]

theorem totalAt_exact_le :
    totalAt (grid.slotOf .exact) Pickup.count k pickups ≤
      totalAt (grid.slotOf .bucketed) Pickup.count k pickups := by
  rw [totalAt_exact]
  exact totalAt_filter_le _ _ _ _ _

end Totals

/-! ## The counts of a zone -/

/-- The series of the same zone on the same intervals, with no count above the other's. -/
structure Series.AtMost (s t : Series) : Prop where
  geohash : s.geohash = t.geohash
  start : s.start = t.start
  step : s.step = t.step
  counts : List.Forall₂ (· ≤ ·) s.counts t.counts

section Zone

variable (pickups : List Pickup) (grid : Grid) (zone : String)

theorem ZoneCount.exact_atMost_bucketed :
    (ofPickups pickups grid .exact zone).series.AtMost
      (ofPickups pickups grid .bucketed zone).series where
  geohash := rfl
  start := rfl
  step := rfl
  counts :=
    (of_ofPickups pickups grid .exact zone).counts.counts_le
      (of_ofPickups pickups grid .bucketed zone).counts
      fun k => totalAt_exact_le grid k (ofZone pickups zone)

theorem ZoneCount.series_exact :
    (ofPickups pickups grid .exact zone).series =
      (ofPickups (aligned grid.range grid.step pickups) grid .bucketed zone).series := by
  have hexact := of_ofPickups pickups grid .exact zone
  have hkept := of_ofPickups (aligned grid.range grid.step pickups) grid .bucketed zone
  have hcounts := hexact.counts.counts_eq hkept.counts fun k => by
    rw [totalAt_exact, ofZone_aligned]
  exact congrArg (Series.mk zone grid.range.start grid.step) hcounts

variable {pickups grid zone}

/-- Where both policies have the same interval for every pickup of a zone, they count alike. -/
theorem ZoneCount.exact_eq_bucketed
    (hslot : ∀ p ∈ ofZone pickups zone, grid.slotOf .exact p = grid.slotOf .bucketed p) :
    ofPickups pickups grid .exact zone = ofPickups pickups grid .bucketed zone := by
  have htally : (ofZone pickups zone).foldl (add grid .exact) (Tally.empty grid.size) =
      (ofZone pickups zone).foldl (add grid .bucketed) (Tally.empty grid.size) := by
    refine List.foldl_ext _ _ _ fun tally p hp => ?_
    have hp := hslot p hp
    unfold Grid.slotOf at hp
    rw [add, add, hp]
  have hzone : (pickups.filter fun p => p.geohash == zone) = ofZone pickups zone := rfl
  simp only [ofPickups, hzone, htally]

end Zone

/-! ## The whole answer -/

/-- The exact answer is the bucketed one without the pickups that are not aligned. -/
structure DifferInMisaligned (pickups : List Pickup) (zones : ZoneSet) (step : Duration)
    (exact bucketed : Resampled) : Prop where
  atMost : List.Forall₂ Series.AtMost exact.series bucketed.series
  account : exact.stats.used + exact.stats.dropped = bucketed.stats.used + bucketed.stats.dropped
  kept : aligned zones.range step pickups ≠ [] → ∃ kept,
    resample (aligned zones.range step pickups) zones step .bucketed = .ok kept ∧
      kept.series = exact.series ∧ kept.stats.used = exact.stats.used
  eq_of_none_dropped : exact.stats.dropped = 0 → exact = bucketed

section Answers

variable (pickups : List Pickup) {zones : ZoneSet} (step : Duration) (size : Nat)

theorem series_exact :
    (counted (aligned zones.range step pickups) zones step size .bucketed).series =
      (counted pickups zones step size .exact).series := by
  rw [series_counted, series_counted]
  refine List.map_congr_left fun zone _ => ?_
  exact (ZoneCount.series_exact pickups ⟨zones.range, step, size⟩ zone).symm

variable (hnodup : zones.geohashes.Nodup)
include hnodup

theorem used_add_dropped (policy : ResamplePolicy) :
    (counted pickups zones step size policy).stats.used +
        (counted pickups zones step size policy).stats.dropped =
      pickups.countP fun p => p.geohash ∈ zones.geohashes := by
  rw [stats_counted _ _ _ _ _ hnodup, List.countP_eq_countP_filter_add pickups
    (fun p => decide (p.geohash ∈ zones.geohashes))
    (fun p => (Grid.slotOf ⟨zones.range, step, size⟩ policy p).isSome)]
  simp only [List.countP_filter]

theorem used_exact :
    (counted (aligned zones.range step pickups) zones step size .bucketed).stats.used =
      (counted pickups zones step size .exact).stats.used := by
  rw [stats_counted _ _ _ _ _ hnodup, stats_counted _ _ _ _ _ hnodup]
  simp only [aligned, List.countP_filter]
  refine List.countP_congr fun p _ => ?_
  rw [Grid.slotOf_exact]
  by_cases haligned : zones.range.Aligned step p.time <;> simp [haligned]

theorem exact_eq_bucketed
    (hdropped : (counted pickups zones step size .exact).stats.dropped = 0) :
    counted pickups zones step size .exact = counted pickups zones step size .bucketed := by
  rw [stats_counted _ _ _ _ _ hnodup, List.countP_eq_zero] at hdropped
  unfold counted
  congr 1
  refine List.map_congr_left fun zone hzone => ZoneCount.exact_eq_bucketed fun p hp => ?_
  obtain ⟨hpickup, hof⟩ := List.mem_filter.mp hp
  obtain rfl := of_decide_eq_true hof
  have hcounted := hdropped p hpickup
  rw [Grid.slotOf_exact] at hcounted ⊢
  by_cases haligned : zones.range.Aligned step p.time
  · rw [if_pos haligned]
  · simp [hzone, haligned] at hcounted

end Answers

/-- Both policies answer with the same zones on the same intervals, and differ in no pickup
that is aligned.  At starts of seconds, what is answered is what is answered at instants. -/
theorem resample_policies {source pickups : List Pickup} {zones : ZoneSet}
    (hzones : ZoneSet.ofPickups source = .ok zones) (hpickups : pickups ≠ []) {step : Duration}
    {size : Nat} (hcount : zones.range.intervalCount step = .ok size) :
    (∃ exact bucketed, resample pickups zones step .exact = .ok exact ∧
      resample pickups zones step .bucketed = .ok bucketed ∧
      exact.Covers zones step size ∧ bucketed.Covers zones step size ∧
      DifferInMisaligned pickups zones step exact bucketed) ∧
    ∀ table, AgreesAtSeconds table := by
  have hnodup := ZoneSet.nodup_ofPickups hzones
  refine ⟨⟨counted pickups zones step size .exact, counted pickups zones step size .bucketed,
    resample_of_intervalCount hpickups hcount .exact,
    resample_of_intervalCount hpickups hcount .bucketed,
    covers_counted pickups zones step size .exact,
    covers_counted pickups zones step size .bucketed, ?_⟩, agreesAtSeconds⟩
  constructor
  · rw [series_counted, series_counted, List.forall₂_map_left_iff,
      List.forall₂_map_right_iff, List.forall₂_same]
    exact fun zone _ => ZoneCount.exact_atMost_bucketed pickups ⟨zones.range, step, size⟩ zone
  · rw [used_add_dropped pickups step size hnodup, used_add_dropped pickups step size hnodup]
  · intro hkept
    exact ⟨_, resample_of_intervalCount hkept hcount .bucketed,
      series_exact pickups step size, used_exact pickups step size hnodup⟩
  · exact exact_eq_bucketed pickups step size hnodup

/-- Before the range a pickup of a zone that is not asked for, four around ten past, the second
of them three tenths of a second too early, and one after the range. -/
def morningPickups : List Pickup :=
  [⟨midnight.fine, "a", 1, "x"⟩, ⟨leapTen.threeTenths, "b", 2, "x"⟩, ⟨tenPast.fine, "b", 5, "x"⟩,
    ⟨tenPast.threeTenths, "b", 7, "x"⟩, ⟨tenPast.eightTenths, "b", 9, "x"⟩,
    ⟨twentyPast.eightTenths, "b", 11, "x"⟩]

theorem morningPickups_policies :
    ZoneSet.ofPickups nightPickups = .ok nightZones ∧ morningPickups ≠ [] ∧
      nightZones.range.intervalCount tenMinutes.fine = .ok 3 ∧
      ∃ exact bucketed,
        resample morningPickups nightZones tenMinutes.fine .exact = .ok exact ∧
        resample morningPickups nightZones tenMinutes.fine .bucketed = .ok bucketed ∧
        exact.Covers nightZones tenMinutes.fine 3 ∧ bucketed.Covers nightZones tenMinutes.fine 3 ∧
        DifferInMisaligned morningPickups nightZones tenMinutes.fine exact bucketed := by
  have hzones : ZoneSet.ofPickups nightPickups = .ok nightZones := by rfl
  have hpickups : morningPickups ≠ [] := by simp [morningPickups]
  have hcount : nightZones.range.intervalCount tenMinutes.fine = .ok 3 := by rfl
  obtain ⟨hanswers, -⟩ := resample_policies hzones hpickups hcount
  exact ⟨hzones, hpickups, hcount, hanswers⟩

/-- The early pickup is the only one in the interval before. -/
example : (resample morningPickups nightZones tenMinutes.fine .exact).map
      (fun r => (r.stats, r.series.map Series.counts)) =
        .ok (⟨2, 3, 3, 2⟩, [[0, 18, 0], [0, 0, 0]]) ∧
    (resample morningPickups nightZones tenMinutes.fine .bucketed).map
      (fun r => (r.stats, r.series.map Series.counts)) =
        .ok (⟨2, 3, 4, 1⟩, [[5, 18, 0], [0, 0, 0]]) := by decide +kernel

end ZoneDemand.Fine
