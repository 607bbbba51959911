import ZoneDemand.Proofs.Dataset.Meaning

/-!
# Counting in the zones of another table

The zones and the range in which a table is resampled may be those of another table.  A
pickup of one of the zones is then counted if its time lies in the range and the policy has
an interval for it, and dropped otherwise; a pickup of no zone appears in neither number.
-/

namespace ZoneDemand

/-! ## The start of an interval -/

/-- An interval that starts by some instant of the calendar has a start. -/
theorem Series.intervalStart?_of_le {s : Series} {k : Nat} {n : Int} {last : Instant}
    (hn : 1 ≤ n) (hstep : s.step.seconds = n) (hregular : s.start.leap = false)
    (hle : s.start.seconds + k * n ≤ last.seconds) :
    ∃ t, s.intervalStart? k = some t ∧ t.leap = false ∧ t.seconds = s.start.seconds + k * n := by
  have hlow := s.start.inRange
  have hhigh := last.inRange
  have hindex : (k : Int) * 1 ≤ k * n := Int.mul_le_mul_of_nonneg_left hn (by omega)
  have hcalendar : -8334601228800 ≤ s.start.seconds + k * n ∧
      s.start.seconds + k * n ≤ 8210266876799 := by omega
  refine ⟨⟨s.start.seconds + k * n, false, hcalendar, by simp⟩, ?_, rfl, rfl⟩
  unfold intervalStart?
  rw [if_pos (by omega), hstep, Int.mul_comm, Instant.add?_of_regular hregular, Instant.ofSeconds?,
    dif_pos hcalendar]

/-! ## Counted and dropped -/

theorem ZoneCount.dropped_ofTable (table : PickupTable) (grid : Grid) (policy : ResamplePolicy)
    (zone : String) :
    (ofTable table grid policy zone).dropped =
      (pickupsIn table.rows zone).countP fun p => !(grid.slot? policy p.time).isSome := by
  rw [← table.ofZone_eq]
  exact (Tally.holds_ofPickups grid policy (table.ofZone zone)).dropped

theorem ZoneCount.used_ofTable (table : PickupTable) (grid : Grid) (policy : ResamplePolicy)
    (zone : String) :
    (ofTable table grid policy zone).used =
      (pickupsIn table.rows zone).countP fun p => (grid.slot? policy p.time).isSome := by
  have hused : (ofTable table grid policy zone).used =
      (pickupsIn table.rows zone).length - (ofTable table grid policy zone).dropped := by
    rw [← table.ofZone_eq]
    rfl
  have hlength : (pickupsIn table.rows zone).length = _ :=
    List.length_eq_countP_add_countP fun p => (grid.slot? policy p.time).isSome
  rw [hused, ZoneCount.dropped_ofTable]
  simp only [Bool.not_eq_true, Bool.decide_eq_false] at hlength
  omega

theorem Resampled.stats_ofTable (table : PickupTable) (grid : Grid) (policy : ResamplePolicy)
    {geohashes : List String} (hnodup : geohashes.Nodup) :
    (Resampled.mk (geohashes.map (ZoneCount.ofTable table grid policy)) grid.size).stats =
      { series := geohashes.length
        intervals := grid.size
        used := table.rows.countP fun p =>
          decide (p.geohash ∈ geohashes) && (grid.slot? policy p.time).isSome
        dropped := table.rows.countP fun p =>
          decide (p.geohash ∈ geohashes) && !(grid.slot? policy p.time).isSome } := by
  simp only [stats, ← List.sum_eq_foldr, List.map_map, List.length_map, Function.comp_def,
    ZoneCount.used_ofTable, ZoneCount.dropped_ofTable, pickupsIn,
    sum_countP_zones Pickup.geohash _ hnodup]

/-! ## The whole answer -/

/-- The series of a zone in a range: one count for each boundary of the range, each the count
of the pickups of the range that fall into the interval that starts there. -/
structure Series.CountsZone (rows : List Pickup) (policy : ResamplePolicy) (range : TimeRange)
    (n : Int) (size : Nat) (s : Series) : Prop where
  start : s.start = range.start
  step : s.step.seconds = n
  boundary : ∀ k < size, ∃ t, s.intervalStart? k = some t ∧ t.leap = false ∧
    t.seconds = range.start.seconds + k * n
  counts : CountsOf (rows.filter fun p => range.Contains p.time) s.geohash policy range.start n
    size s.counts

theorem PickupTable.countsZone {table : PickupTable} {zones : ZoneSet} {step : Step} {n : Int}
    (hn : 1 ≤ n) (hstep : step.seconds = n) (hstart : zones.range.start.leap = false)
    (hfinish : zones.range.finish.leap = false)
    (hregular : ∀ p ∈ table.rows, p.time.leap = false) (policy : ResamplePolicy) (zone : String) :
    (table.zoneSeries zones.range step n policy zone).CountsZone table.rows policy zones.range n
      (zones.range.size n) where
  start := rfl
  step := hstep
  boundary k hk := by
    have hordered := (Instant.le_iff_seconds hstart hfinish).mp zones.start_le_finish
    have hboundary := (TimeRange.lt_size_iff hn hordered).mp hk
    exact Series.intervalStart?_of_le hn hstep hstart hboundary
  counts := countsOf_within hn hstep hstart hfinish hregular policy zone

/-- Resampling in the zones of any table counts every pickup of a zone or drops it. -/
theorem resample_accounts {table source : PickupTable} {zones : ZoneSet}
    (hrows : table.rows ≠ []) (hzones : ZoneSet.ofTable source = .ok zones)
    (hregular : ∀ p ∈ table.rows ++ source.rows, p.time.leap = false) {n : Int} (hn : 1 ≤ n)
    {step : Step} (hstep : Step.ofSeconds? n = some step) (policy : ResamplePolicy) :
    ∃ resampled, ∃ size : Nat, resample table zones step policy = .ok resampled ∧
      (∀ k : Nat, k < size ↔ zones.range.start.seconds + k * n ≤ zones.range.finish.seconds) ∧
      resampled.series.map Series.geohash = zones.geohashes ∧
      (∀ s ∈ resampled.series, s.CountsZone table.rows policy zones.range n size) ∧
      resampled.stats =
        { series := zones.geohashes.length
          intervals := size
          used := table.rows.countP fun p =>
            p.geohash ∈ zones.geohashes ∧ policy.CountsWithin zones.range n p.time
          dropped := table.rows.countP fun p =>
            p.geohash ∈ zones.geohashes ∧ ¬policy.CountsWithin zones.range n p.time } := by
  have hseconds := Step.seconds_of_ofSeconds? hstep
  have htableRegular : ∀ p ∈ table.rows, p.time.leap = false := fun p hp =>
    hregular p (List.mem_append_left source.rows hp)
  have hsourceRegular : ∀ p ∈ source.rows, p.time.leap = false := fun p hp =>
    hregular p (List.mem_append_right table.rows hp)
  obtain ⟨-, hearliest, hlatest⟩ := ZoneSet.of_ofTable hzones
  have hstart := hearliest.leap_eq_false hsourceRegular
  have hfinish := hlatest.leap_eq_false hsourceRegular
  have hordered := (Instant.le_iff_seconds hstart hfinish).mp zones.start_le_finish
  refine ⟨_, zones.range.size n, resample_of_ne_nil hn hseconds hstart hfinish hrows policy,
    fun k => ?_, ?_, ?_, ?_⟩
  · exact TimeRange.lt_size_iff hn hordered
  · simp [Resampled.series, ZoneCount.ofTable, Function.comp_def]
  · intro s hs
    rw [Resampled.series, List.map_map, List.mem_map] at hs
    obtain ⟨zone, -, rfl⟩ := hs
    exact table.countsZone hn hseconds hstart hfinish htableRegular policy zone
  · rw [Resampled.stats_ofTable table _ policy zones.nodup]
    congr 1
    all_goals
      refine List.countP_congr fun p hp => ?_
      have hcounted :=
        Grid.isSome_slot?_eq hn hseconds hstart hfinish (htableRegular p hp) policy
      simp only [hcounted, Bool.decide_and, decide_not]

/-- Two zones before and after midnight, of which one has pickups in the other table. -/
def nightTable : PickupTable :=
  ⟨[⟨⟨1639353000, false, by decide, by decide⟩, "b", 4, "x"⟩,
    ⟨tenPast, "c", 3, "x"⟩], by decide +kernel⟩

def nightZones : ZoneSet where
  geohashes := ["b", "c"]
  range := ⟨⟨1639353000, false, by decide, by decide⟩, tenPast⟩
  nodup := by decide
  start_le_finish := by decide

/-- Four pickups after midnight: the first of a zone that is not asked for, the second at a
boundary, the third between two boundaries and the last after the range. -/
def morningTable : PickupTable :=
  ⟨[⟨midnight, "a", 1, "x"⟩, ⟨midnight, "b", 2, "x"⟩,
    ⟨⟨1639354000, false, by decide, by decide⟩, "b", 5, "x"⟩,
    ⟨twentyPast, "b", 7, "x"⟩], by decide +kernel⟩

theorem morningTable_in_nightZones :
    ∃ resampled, ∃ size : Nat,
      resample morningTable nightZones ⟨600000, by decide⟩ .exact = .ok resampled ∧
      (∀ k : Nat, k < size ↔
        nightZones.range.start.seconds + k * 600 ≤ nightZones.range.finish.seconds) ∧
      resampled.series.map Series.geohash = nightZones.geohashes ∧
      (∀ s ∈ resampled.series,
        s.CountsZone morningTable.rows .exact nightZones.range 600 size) ∧
      resampled.stats =
        { series := nightZones.geohashes.length
          intervals := size
          used := morningTable.rows.countP fun p => p.geohash ∈ nightZones.geohashes ∧
            ResamplePolicy.exact.CountsWithin nightZones.range 600 p.time
          dropped := morningTable.rows.countP fun p => p.geohash ∈ nightZones.geohashes ∧
            ¬ResamplePolicy.exact.CountsWithin nightZones.range 600 p.time } := by
  have hzones : ZoneSet.ofTable nightTable = .ok nightZones := rfl
  exact resample_accounts (by decide) hzones (by decide) (by decide) rfl .exact

example : (resample morningTable nightZones ⟨600000, by decide⟩ .exact).map Resampled.stats =
    .ok ⟨2, 3, 1, 2⟩ := by decide +kernel

end ZoneDemand
