import Mathlib.Tactic.Ring
import ZoneDemand.Proofs.Resample.Checked

/-!
# The starts of intervals

Interval `k` of a series starts `k` whole-second steps after the series.  None of the conversions
on the way to that start refuses a number that would lead to a moment of the calendar, so that a
start is missing only where the calendar ends.  A resampled series never gets there: its
intervals start within the range, and the last one ends after it.
-/

namespace ZoneDemand.Fine

namespace Series

/-- Nanoseconds from 1970-01-01 00:00:00 to `k` steps after the start, in unbounded numbers. -/
def startCount (s : Series) (k : Nat) : Int :=
  s.start.count + 1000000000 * (k * s.step.seconds)

/-- Whatever its index, the start of an interval is the moment that unbounded numbers give, and
missing only if that is no moment of the calendar. -/
structure StartsExactly (s : Series) : Prop where
  eq_some_iff : ∀ k t,
    s.intervalStart? k = some t ↔ t.leap = false ∧ t.count = s.startCount k
  eq_none_iff : ∀ k, s.intervalStart? k = none ↔ ¬Moment.InCalendar (s.startCount k)

/-- All intervals have starts, which begin with that of the range and ascend by the step.  The
last one lies in the range, less than a step before its end. -/
structure Spans (s : Series) (range : TimeRange) : Prop where
  start : ∀ k < s.size, ∃ t, s.intervalStart? k = some t ∧ t.leap = false ∧
    t.count = range.start.count + 1000000000 * (k * s.step.seconds)
  ascending : ∀ k, k + 1 < s.size → ∃ t next, s.intervalStart? k = some t ∧
    s.intervalStart? (k + 1) = some next ∧ t < next ∧
      next.count = t.count + 1000000000 * s.step.seconds
  last : ∃ t, s.end? = some t ∧ t ≤ range.finish ∧
    range.finish.count - 1000000000 * s.step.seconds < t.count

/-! ## The conversions -/

theorem le_natAbs_offset {n : Int} (hn : n ≠ 0) (k : Nat) : (k : Int) ≤ (n * k).natAbs := by
  rw [Int.natAbs_mul, Int.natAbs_natCast]
  have hpos : 1 ≤ n.natAbs := Int.natAbs_pos.mpr hn
  have hle := Nat.mul_le_mul_right k hpos
  omega

/-- A step of at least a second makes an index and an offset too large only where the calendar
has ended before. -/
theorem intervalStart?_eq_add? {s : Series} (hstep : s.step.seconds ≠ 0) (k : Nat) :
    s.intervalStart? k = s.start.add? (s.step.seconds * k) := by
  have hindex := le_natAbs_offset hstep k
  unfold intervalStart?
  generalize hoffset : s.step.seconds * (k : Int) = offset at hindex
  by_cases hnear : -Machine.longest ≤ offset ∧ offset ≤ Machine.longest
  · have hbounds : -9223372036854775 ≤ offset ∧ offset ≤ 9223372036854775 := hnear
    have hk : Machine.signed? (k : Int) = some (k : Int) :=
      Machine.signed?_of_bounds (by unfold Machine.maxSigned; omega)
        (by unfold Machine.maxSigned; omega)
    have hsigned : Machine.signed? offset = some offset :=
      Machine.signed?_of_bounds (by unfold Machine.maxSigned; omega)
        (by unfold Machine.maxSigned; omega)
    simp only [hk, hoffset, hsigned, Option.bind_eq_bind, Option.bind_some, if_pos hnear]
  · have hfar : s.start.add? offset = none := by
      rw [Moment.add?, Instant.add?_of_far (by omega)]
      rfl
    rw [hfar]
    rcases Machine.signed?_cases (k : Int) with hk | hk
    · rcases Machine.signed?_cases offset with hsigned | hsigned
      · simp only [hk, hoffset, hsigned, Option.bind_eq_bind, Option.bind_some, if_neg hnear]
      · simp only [hk, hoffset, hsigned, Option.bind_eq_bind, Option.bind_some, Option.bind_none]
    · simp only [hk, Option.bind_eq_bind, Option.bind_none]

theorem startsExactly {s : Series} (hregular : s.start.leap = false)
    (hstep : s.step.seconds ≠ 0) : s.StartsExactly := by
  constructor
  · intro k t
    rw [intervalStart?_eq_add? hstep, Moment.add?_eq_some_iff hregular, startCount,
      Int.mul_comm (k : Int)]
  · intro k
    rw [intervalStart?_eq_add? hstep, Moment.add?_eq_none_iff hregular, startCount,
      Int.mul_comm (k : Int)]

end Series

def standingStill : Series := ⟨"9q8yy", midnight.fine, ⟨0, by decide⟩, []⟩

/-- Only steps of less than a second meet an index that is refused before the calendar ends. -/
example : standingStill.intervalStart? 9223372036854775807 = some midnight.fine ∧
    standingStill.intervalStart? 9223372036854775808 = none := by decide

/-! ## The intervals of a range -/

section Range

variable {range : TimeRange} {step : Duration} (hstep : 1 ≤ step.seconds)
  (hstart : range.start.leap = false) (hfinish : range.finish.leap = false)
  (hordered : range.start ≤ range.finish)
include hstep hstart hfinish hordered

theorem intervalCount_eq : range.intervalCount step =
    .ok (((range.finish.count - range.start.count) / 1000000000 / step.seconds).toNat + 1) := by
  have hle := (Moment.le_iff_count hstart hfinish).mp hordered
  have hlow := Moment.inCalendar_iff.mp range.start.inCalendar_count
  have hhigh := Moment.inCalendar_iff.mp range.finish.inCalendar_count
  have hspan : range.finish.secondsSince range.start =
      (range.finish.count - range.start.count) / 1000000000 := by
    rw [Moment.secondsSince, Moment.since_of_regular hfinish hstart,
      Int.tdiv_eq_ediv_of_nonneg (by omega)]
  unfold TimeRange.intervalCount
  rw [if_neg (by omega), hspan]
  generalize hseconds : (range.finish.count - range.start.count) / 1000000000 = span
  have hnonneg : 0 ≤ span := by omega
  have hquotient : 0 ≤ span / step.seconds := Int.ediv_nonneg hnonneg (by omega)
  have hbound : span / step.seconds ≤ span := Int.ediv_le_self _ hnonneg
  rw [Int.tdiv_eq_ediv_of_nonneg hnonneg]
  simp only
  rw [Int.emod_eq_of_lt (by omega) (by omega), Int.toNat_add hquotient (by decide)]
  rfl

section Counted

variable {s : Series} (hsize : range.intervalCount step = .ok s.size)
include hsize

theorem lt_size_iff (k : Nat) :
    k < s.size ↔ k * step.seconds ≤ (range.finish.count - range.start.count) / 1000000000 := by
  have hle := (Moment.le_iff_count hstart hfinish).mp hordered
  have hquotient : 0 ≤ (range.finish.count - range.start.count) / 1000000000 / step.seconds :=
    Int.ediv_nonneg (by omega) (by omega)
  rw [intervalCount_eq hstep hstart hfinish hordered, Except.ok.injEq] at hsize
  rw [← Int.le_ediv_iff_mul_le (by omega)]
  omega

variable (hfirst : s.start = range.start) (hof : s.step = step)
include hfirst hof

theorem exists_start {k : Nat} (hk : k < s.size) : ∃ t, s.intervalStart? k = some t ∧
    t.leap = false ∧ t.count = range.start.count + 1000000000 * (k * step.seconds) ∧
      t ≤ range.finish := by
  have hwithin := (lt_size_iff hstep hstart hfinish hordered hsize k).mp hk
  have hlow := Moment.inCalendar_iff.mp range.start.inCalendar_count
  have hhigh := Moment.inCalendar_iff.mp range.finish.inCalendar_count
  have hoffset : 0 ≤ (k : Int) * step.seconds := Int.mul_nonneg (by omega) (by omega)
  subst hof
  have hexact : s.StartsExactly :=
    Series.startsExactly (by rw [hfirst]; exact hstart) (by omega)
  have hcount : s.startCount k = range.start.count + 1000000000 * (k * s.step.seconds) := by
    rw [Series.startCount, hfirst]
  cases ht : s.intervalStart? k with
  | none =>
      have houtside := (hexact.eq_none_iff k).mp ht
      rw [hcount, Moment.inCalendar_iff] at houtside
      omega
  | some t =>
      obtain ⟨hregular, htime⟩ := (hexact.eq_some_iff k t).mp ht
      rw [hcount] at htime
      refine ⟨t, rfl, hregular, htime, ?_⟩
      rw [Moment.le_iff_count hregular hfinish]
      omega

/-- A series with a count for every interval of a range spans it. -/
theorem spans : s.Spans range := by
  have hstarts := fun k => exists_start hstep hstart hfinish hordered hsize hfirst hof (k := k)
  have hlength := lt_size_iff hstep hstart hfinish hordered hsize
  rw [intervalCount_eq hstep hstart hfinish hordered, Except.ok.injEq] at hsize
  subst hof
  refine ⟨?_, ?_, ?_⟩
  · intro k hk
    obtain ⟨t, ht, hregular, hcount, -⟩ := hstarts k hk
    exact ⟨t, ht, hregular, hcount⟩
  · intro k hk
    obtain ⟨t, ht, hregular, hcount, -⟩ := hstarts k (by omega)
    obtain ⟨next, hnext, hnextRegular, hnextCount, -⟩ := hstarts (k + 1) hk
    have hlater : next.count = t.count + 1000000000 * s.step.seconds := by
      rw [hnextCount, hcount]
      push_cast
      ring
    refine ⟨t, next, ht, hnext, ?_, hlater⟩
    rw [Moment.lt_iff_count hregular hnextRegular]
    omega
  · obtain ⟨t, ht, hregular, hcount, hle⟩ := hstarts (s.size - 1) (by omega)
    refine ⟨t, ?_, hle, ?_⟩
    · rw [Series.end?, if_neg (by omega), ht]
    · -- One interval more would start in a whole second after the end.
      have hbeyond := (hlength s.size).not.mp (Nat.lt_irrefl _)
      have hnext : (s.size : Int) * s.step.seconds =
          ((s.size - 1 : Nat) : Int) * s.step.seconds + s.step.seconds := by
        rw [show (s.size : Int) = ((s.size - 1 : Nat) : Int) + 1 by omega]
        ring
      omega

end Counted

end Range

/-! ## Resampled series -/

/-- The starts of intervals are exact, and a series that resampling returns spans the range of its
zones.  What holds at all moments holds at instants, where resampling and the starts of intervals
are the same. -/
theorem starts_exact {source : List Pickup} {zones : ZoneSet}
    (hzones : ZoneSet.ofPickups source = .ok zones)
    (hregular : ∀ p ∈ source, p.time.leap = false) (pickups : List Pickup) (step : Duration)
    (policy : ResamplePolicy) :
    (∀ s : Series, s.start.leap = false → s.step.seconds ≠ 0 → s.StartsExactly) ∧
    ((∃ r, resample pickups zones step policy = .ok r) ↔ pickups ≠ [] ∧ 1 ≤ step.seconds) ∧
    (∀ r, resample pickups zones step policy = .ok r → ∀ s ∈ r.series, s.Spans zones.range) ∧
    (∀ s : ZoneDemand.Series,
      (∀ k, s.fine.intervalStart? k = (s.intervalStart? k).map Instant.fine) ∧
      s.fine.end? = s.end?.map Instant.fine) ∧
    ∀ table : PickupTable,
      ZoneSet.ofPickups (table.rows.map ZoneDemand.Pickup.fine) =
        (ZoneDemand.ZoneSet.ofTable table).map ZoneDemand.ZoneSet.fine ∧
      ∀ zones step policy,
        resample (table.rows.map ZoneDemand.Pickup.fine) zones.fine (Step.fine step) policy =
          (ZoneDemand.resample table zones step policy).map ZoneDemand.Resampled.fine := by
  obtain ⟨hstart, hfinish, hordered⟩ := ZoneSet.of_ofPickups hzones
  have hends : ∀ t ∈ source.map Pickup.time, t.leap = false := by
    intro t ht
    obtain ⟨p, hp, rfl⟩ := List.mem_map.mp ht
    exact hregular p hp
  have hcount := fun hstep : 1 ≤ step.seconds =>
    intervalCount_eq hstep (hends _ hstart) (hends _ hfinish) hordered
  have hstep : ∀ size, zones.range.intervalCount step = .ok size → 1 ≤ step.seconds := fun _ =>
    TimeRange.one_le_of_intervalCount
  refine ⟨fun s => Series.startsExactly, ?_, ?_, fun s => ⟨intervalStart?_fine s, end?_fine s⟩,
    fun table => ⟨zones_fine table, resample_fine table⟩⟩
  · simp only [resample_eq_ok_iff]
    constructor
    · rintro ⟨r, hpickups, size, hsize, -⟩
      exact ⟨hpickups, hstep size hsize⟩
    · rintro ⟨hpickups, hlong⟩
      exact ⟨_, hpickups, _, hcount hlong, rfl⟩
  · intro r hr s hs
    obtain ⟨-, size, hsize, rfl⟩ := resample_eq_ok_iff.mp hr
    rw [Resampled.series, List.map_map, List.mem_map] at hs
    obtain ⟨geohash, -, rfl⟩ := hs
    have hlength := size_ofPickups pickups ⟨zones.range, step, size⟩ policy geohash
    exact spans (hstep size hsize) (hends _ hstart) (hends _ hfinish) hordered
      (hsize.trans (congrArg Except.ok hlength.symm)) rfl rfl

/-- Two and a quarter seconds apart. -/
def quarterPast : List Pickup :=
  [⟨⟨midnight, 250000000, by decide⟩, "b", 4, "x"⟩,
    ⟨⟨⟨1639353602, false, by decide, by decide⟩, 500000000, by decide⟩, "a", 3, "x"⟩]

def quarterPastZones : ZoneSet where
  geohashes := ["b", "a"]
  range.start := ⟨midnight, 250000000, by decide⟩
  range.finish := ⟨⟨1639353602, false, by decide, by decide⟩, 500000000, by decide⟩

/-- A second and three quarters, of which the second counts. -/
def brokenStep : Duration := ⟨1750000000, by decide⟩

/-- The intervals go back in time from the third second of the calendar. -/
def backwards : Series :=
  ⟨"9q8yy", ⟨⟨-8334601228798, false, by decide, by decide⟩, 500000000, by decide⟩,
    ⟨-1999999999, by decide⟩, []⟩

theorem quarterPast_starts :
    ZoneSet.ofPickups quarterPast = .ok quarterPastZones ∧
    (∃ r, resample quarterPast quarterPastZones brokenStep .bucketed = .ok r ∧
      ∀ s ∈ r.series, s.Spans quarterPastZones.range) ∧
    backwards.StartsExactly ∧
    backwards.intervalStart? 2 = some ⟨Machine.calendarStart, 500000000, by decide⟩ ∧
    backwards.intervalStart? 3 = none := by
  have hzones : ZoneSet.ofPickups quarterPast = .ok quarterPastZones := by rfl
  have hregular : ∀ p ∈ quarterPast, p.time.leap = false := by
    simp [quarterPast, Moment.leap, midnight]
  obtain ⟨hexact, hanswers, hspans, -⟩ :=
    starts_exact hzones hregular quarterPast brokenStep .bucketed
  obtain ⟨r, hr⟩ := hanswers.mpr ⟨by simp [quarterPast], by decide⟩
  exact ⟨hzones, ⟨r, hr, hspans r hr⟩, hexact backwards rfl (by decide), by decide, by decide⟩

end ZoneDemand.Fine
