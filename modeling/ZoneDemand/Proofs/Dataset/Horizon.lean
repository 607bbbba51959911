import ZoneDemand.Proofs.Dataset.Meaning

/-!
# The horizon stays out of the training data

The training data end where the horizon begins.  Two tables with the same zones and the same
range make the same training data as soon as they agree on what came before; what happens
within the horizon cannot be seen in them.
-/

namespace ZoneDemand

/-- The times and counts of a zone's pickups before a second. -/
def historyBefore (limit : Int) (pickups : List Pickup) (zone : String) :
    List (Instant × UInt64) :=
  ((pickupsIn pickups zone).filter fun p => p.time.seconds < limit).map fun p => (p.time, p.count)

/-- Every zone has the same times and counts before a second, in whatever order. -/
def AgreeBefore (limit : Int) (pickups others : List Pickup) : Prop :=
  ∀ zone, (historyBefore limit pickups zone).Perm (historyBefore limit others zone)

theorem agreeBefore_append {limit : Int} (pickups : List Pickup) {later others : List Pickup}
    (hlater : ∀ p ∈ later, limit ≤ p.time.seconds)
    (hothers : ∀ p ∈ others, limit ≤ p.time.seconds) :
    AgreeBefore limit (pickups ++ later) (pickups ++ others) := by
  have hnothing : ∀ {tail : List Pickup}, (∀ p ∈ tail, limit ≤ p.time.seconds) →
      ∀ zone, historyBefore limit tail zone = [] := by
    intro tail htail zone
    rw [historyBefore, List.map_eq_nil_iff, List.filter_eq_nil_iff]
    intro p hp
    have hlimit := htail p (mem_pickupsIn.mp hp).1
    rw [decide_eq_true_eq]
    omega
  have hsplit : ∀ tail zone, historyBefore limit (pickups ++ tail) zone =
      historyBefore limit pickups zone ++ historyBefore limit tail zone := by
    intro tail zone
    simp only [historyBefore, pickupsIn, List.filter_append, List.map_append]
  intro zone
  rw [hsplit, hsplit, hnothing hlater, hnothing hothers]

theorem ResamplePolicy.Counts.lt_of_lt {policy : ResamplePolicy} {first t : Instant} {n : Int}
    {k m : Nat} (h : policy.Counts first n k t) (hn : 1 ≤ n) (hk : k < m) :
    t.seconds < first.seconds + m * n := by
  have hnext : (k + 1 : Int) * n ≤ m * n := Int.mul_le_mul_of_nonneg_right (by omega) (by omega)
  cases policy with
  | exact =>
      have htime : t.seconds = first.seconds + k * n := h
      have hstep : (k + 1 : Int) * n = k * n + n := by rw [Int.add_mul, Int.one_mul]
      omega
  | bucketed =>
      have hwindow : t.seconds < first.seconds + (k + 1) * n := h.2
      omega

section Totals

variable {limit n : Int} {policy : ResamplePolicy} {first : Instant} {k : Nat}
  (hbefore : ∀ t, policy.Counts first n k t → t.seconds < limit)
include hbefore

/-- What is counted before a second is a sum over the history before it. -/
theorem total_counted_eq (pickups : List Pickup) (zone : String) :
    total (counted pickups zone policy first n k) =
      (((historyBefore limit pickups zone).filter fun entry =>
        policy.Counts first n k entry.1).map fun entry => entry.2.toNat).sum := by
  have hkept : ((pickupsIn pickups zone).filter fun p => p.time.seconds < limit).filter
      (fun p => policy.Counts first n k p.time) = counted pickups zone policy first n k := by
    rw [List.filter_filter, counted]
    apply List.filter_congr
    intro p _
    rw [Bool.and_eq_left_iff_imp, decide_eq_true_eq, decide_eq_true_eq]
    exact hbefore p.time
  rw [historyBefore, List.filter_map, List.map_map, ← hkept]
  rfl

theorem total_counted_of_agreeBefore {pickups others : List Pickup}
    (hagree : AgreeBefore limit pickups others) (zone : String) :
    total (counted pickups zone policy first n k) =
      total (counted others zone policy first n k) := by
  rw [total_counted_eq hbefore, total_counted_eq hbefore]
  exact (((hagree zone).filter _).map _).sum_nat

end Totals

theorem TimeRange.seconds_pos_of_intervalCount {range : TimeRange} {step : Step} {size : Nat}
    (hsize : range.intervalCount step = .ok size) : 1 ≤ step.seconds := by
  unfold intervalCount at hsize
  split at hsize
  · simp at hsize
  · omega

section Series

variable {table : PickupTable} {zones : ZoneSet} {step : Step} {size horizon : Nat}
  (hzones : ZoneSet.ofTable table = .ok zones) (hregular : ∀ p ∈ table.rows, p.time.leap = false)
  (hsize : zones.range.intervalCount step = .ok size)
include hzones hregular hsize

theorem countsOf_zoneSeries_of_intervalCount (policy : ResamplePolicy) (zone : String) :
    CountsOf table.rows zone policy zones.range.start step.seconds size
      (table.zoneSeries zones.range step step.seconds policy zone).counts := by
  have hn := TimeRange.seconds_pos_of_intervalCount hsize
  obtain ⟨-, hearliest, hlatest⟩ := ZoneSet.of_ofTable hzones
  have hcount := TimeRange.intervalCount_eq hn rfl (hearliest.leap_eq_false hregular)
    (hlatest.leap_eq_false hregular) zones.start_le_finish
  rw [hsize, Except.ok.injEq] at hcount
  rw [hcount]
  exact countsOf_zoneSeries hn rfl hregular hearliest hlatest policy zone

theorem Split.ofSeries_of_intervalCount (hlong : horizon < size) (policy : ResamplePolicy) :
    ∃ resampled, resample table zones step policy = .ok resampled ∧
      resampled.series = zones.geohashes.map
        (table.zoneSeries zones.range step step.seconds policy) ∧
      Split.ofSeries resampled.series horizon =
        .ok ⟨resampled.series.map (·.withoutTail horizon), resampled.series, horizon⟩ := by
  have hn := TimeRange.seconds_pos_of_intervalCount hsize
  obtain ⟨-, hearliest, hlatest⟩ := ZoneSet.of_ofTable hzones
  obtain ⟨resampled, hresample, hseries⟩ :=
    resample_eq_ok hn rfl hregular hearliest hlatest policy
  have hsizes : ∀ s ∈ resampled.series, s.size = size := by
    intro s hs
    rw [hseries, List.mem_map] at hs
    obtain ⟨zone, -, rfl⟩ := hs
    exact (countsOf_zoneSeries_of_intervalCount hzones hregular hsize policy zone).length
  exact ⟨resampled, hresample, hseries, Split.ofSeries_of_lt hsizes hlong⟩

end Series

theorem Series.withoutTail_eq {s t : Series} {size horizon : Nat}
    (hgeohash : s.geohash = t.geohash) (hstart : s.start = t.start) (hstep : s.step = t.step)
    (hs : s.size = size) (ht : t.size = size)
    (htake : s.counts.take (size - horizon) = t.counts.take (size - horizon)) :
    s.withoutTail horizon = t.withoutTail horizon := by
  unfold withoutTail
  rw [hs, ht, htake, hgeohash, hstart, hstep]

/-- The training data depend on nothing from the first second of the horizon on. -/
theorem Split.train_eq_of_agreeBefore {table other : PickupTable} {zones : ZoneSet} {step : Step}
    {size horizon : Nat} (hzones : ZoneSet.ofTable table = .ok zones)
    (hother : ZoneSet.ofTable other = .ok zones)
    (hregular : ∀ p ∈ table.rows, p.time.leap = false)
    (hotherRegular : ∀ p ∈ other.rows, p.time.leap = false)
    (hsize : zones.range.intervalCount step = .ok size) (hlong : horizon < size)
    (hagree : AgreeBefore (zones.range.start.seconds + (size - horizon : Nat) * step.seconds)
      table.rows other.rows) (policy : ResamplePolicy) :
    ∃ resampled otherResampled split otherSplit,
      resample table zones step policy = .ok resampled ∧
      resample other zones step policy = .ok otherResampled ∧
      Split.ofSeries resampled.series horizon = .ok split ∧
      Split.ofSeries otherResampled.series horizon = .ok otherSplit ∧
      split.train = otherSplit.train ∧
      ∀ categories, recordLines categories split.train =
        recordLines categories otherSplit.train := by
  have hn := TimeRange.seconds_pos_of_intervalCount hsize
  obtain ⟨resampled, hresample, hseries, hsplit⟩ :=
    Split.ofSeries_of_intervalCount hzones hregular hsize hlong policy
  obtain ⟨otherResampled, hotherResample, hotherSeries, hotherSplit⟩ :=
    Split.ofSeries_of_intervalCount hother hotherRegular hsize hlong policy
  have htrain : resampled.series.map (·.withoutTail horizon) =
      otherResampled.series.map (·.withoutTail horizon) := by
    rw [hseries, hotherSeries, List.map_map, List.map_map]
    apply List.map_congr_left
    intro zone _
    have hcounts := countsOf_zoneSeries_of_intervalCount hzones hregular hsize policy zone
    have hotherCounts :=
      countsOf_zoneSeries_of_intervalCount hother hotherRegular hsize policy zone
    have htake := hcounts.take_eq hotherCounts (m := size - horizon) (by omega) (by omega)
      fun k hk => total_counted_of_agreeBefore (fun t ht => ht.lt_of_lt hn hk) hagree zone
    exact Series.withoutTail_eq (t := other.zoneSeries zones.range step step.seconds policy zone)
      rfl rfl rfl hcounts.length hotherCounts.length htake
  refine ⟨resampled, otherResampled, _, _, hresample, hotherResample, hsplit, hotherSplit,
    htrain, ?_⟩
  intro categories
  exact congrArg (recordLines categories) htrain

/-- Two zones in the first twenty minutes after midnight. -/
def firstMinutes : List Pickup := [⟨midnight, "a", 1, "x"⟩, ⟨tenPast, "b", 2, "x"⟩]

def quietEnd : List Pickup := [⟨twentyPast, "a", 1, "x"⟩]

def busyEnd : List Pickup := [⟨twentyPast, "a", 9, "x"⟩, ⟨twentyPast, "b", 9, "x"⟩]

def quietTable : PickupTable := ⟨firstMinutes ++ quietEnd, by decide +kernel⟩

def busyTable : PickupTable := ⟨firstMinutes ++ busyEnd, by decide +kernel⟩

def midnightZones : ZoneSet where
  geohashes := ["a", "b"]
  range := ⟨midnight, twentyPast⟩
  nodup := by decide
  start_le_finish := by decide

theorem quietTable_train_eq :
    ∃ resampled otherResampled split otherSplit,
      resample quietTable midnightZones ⟨600000, by decide⟩ .bucketed = .ok resampled ∧
      resample busyTable midnightZones ⟨600000, by decide⟩ .bucketed = .ok otherResampled ∧
      Split.ofSeries resampled.series 1 = .ok split ∧
      Split.ofSeries otherResampled.series 1 = .ok otherSplit ∧
      split.train = otherSplit.train ∧
      ∀ categories, recordLines categories split.train =
        recordLines categories otherSplit.train := by
  have hquiet : ZoneSet.ofTable quietTable = .ok midnightZones := by rfl
  have hbusy : ZoneSet.ofTable busyTable = .ok midnightZones := by rfl
  have hsize : midnightZones.range.intervalCount ⟨600000, by decide⟩ = .ok 3 := by rfl
  refine Split.train_eq_of_agreeBefore hquiet hbusy (by decide) (by decide) hsize (by decide) ?_
    .bucketed
  exact agreeBefore_append firstMinutes (by decide) (by decide)

end ZoneDemand
