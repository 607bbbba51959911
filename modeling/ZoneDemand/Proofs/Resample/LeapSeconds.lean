import Mathlib.Tactic.MkIffOfInductiveProp
import ZoneDemand.Proofs.Resample.Windows

/-!
# Leap seconds in a range

The seconds since an instant grow with time, with one exception: where the first instant is a
leap second, a leap second that ends a later day is further away than the midnight after it.  A
range between such an instant and such a midnight may have one interval too few, and then
bucketed counting has no interval for the leap second before midnight.
-/

namespace ZoneDemand

namespace Instant

/-- The leap second `t` is further away from the leap second `first` than the midnight that
follows `t`. -/
@[mk_iff]
structure Outruns (first midnight t : Instant) : Prop where
  first_leap : first.leap = true
  leap : t.leap = true
  next : midnight.seconds = t.seconds + 1
  day : midnight.timeOfDay = 0
  later : first.timeOfDay < t.timeOfDay

instance (first midnight t : Instant) : Decidable (Outruns first midnight t) :=
  decidable_of_iff _ (outruns_iff first midnight t).symm

section Since

variable {first t last : Instant}

theorem since_le_since (hle : t ≤ last) (hbehind : ¬Outruns first last t) :
    t.since first ≤ last.since first := by
  rw [since_eq, since_eq]
  rcases le_iff.mp hle with hlater | ⟨hsame, hleap⟩
  · -- What `t` is ahead by a leap second, `last` makes up for by a second unless it is taken away.
    have hnext : last.seconds = t.seconds + 1 →
        last.timeOfDay = t.timeOfDay + 1 ∨ last.timeOfDay = 0 := by
      unfold timeOfDay daySeconds
      omega
    rw [outruns_iff] at hbehind
    grind
  · have htime : last.timeOfDay = t.timeOfDay := by rw [timeOfDay, timeOfDay, hsame]
    rw [htime, hsame]
    cases ht : t.leap with
    | false => simp; split <;> omega
    | true => simp [hleap ht]

theorem Outruns.since_eq (h : Outruns first last t) :
    t.since first = last.seconds - first.seconds ∧
      last.since first = last.seconds - first.seconds - 1 := by
  have hregular : last.leap = false := by
    have hends := last.leap_endsMinute
    have hday := h.day
    unfold timeOfDay daySeconds at hday
    rw [Bool.eq_false_iff]
    intro hleap
    have hlast := hends hleap
    omega
  have hnext := h.next
  have hlater := h.later
  have hfirst : 0 ≤ first.timeOfDay := Int.emod_nonneg _ (by decide)
  rw [Instant.since_eq, Instant.since_eq, h.leap, h.first_leap, hregular, h.day]
  constructor
  · rw [if_pos ⟨rfl, by omega⟩, if_neg (by omega)]
    omega
  · rw [if_neg (by simp), if_pos ⟨rfl, hfirst⟩]
    omega

end Since

end Instant

/-! ## The intervals of a range -/

/-- Bucketed counting with intervals of `n` seconds has no interval for this instant of the
range. -/
def TimeRange.Loses (range : TimeRange) (n : Int) (t : Instant) : Prop :=
  Instant.Outruns range.start range.finish t ∧ n ∣ range.finish.seconds - range.start.seconds

instance (range : TimeRange) (n : Int) (t : Instant) : Decidable (range.Loses n t) :=
  inferInstanceAs (Decidable (_ ∧ _))

/-- From a leap second to a midnight it is a second more than whole minutes, which no number
divides that has a factor in common with the minute. -/
theorem TimeRange.not_loses {range : TimeRange} {n : Int}
    (hfactor : 2 ∣ n ∨ 3 ∣ n ∨ 5 ∣ n) (t : Instant) : ¬range.Loses n t := by
  rintro ⟨hbehind, hspan⟩
  have hstart := range.start.leap_endsMinute hbehind.first_leap
  have hfinish : range.finish.seconds % 60 = 0 := by
    have hday := hbehind.day
    unfold Instant.timeOfDay Instant.daySeconds at hday
    omega
  rcases hfactor with h | h | h
  all_goals
    have hdvd := Int.dvd_trans h hspan
    omega

/-- The number of intervals of `n` seconds that start in a range. -/
def TimeRange.intervals (range : TimeRange) (n : Int) : Nat :=
  (range.finish.since range.start / n).toNat + 1

section Range

variable {range : TimeRange} {step : Step} {n : Int} (hn : 1 ≤ n) (hstep : step.seconds = n)
include hn

theorem Instant.since_div_lt {t : Instant} (hafter : range.start ≤ t) :
    0 ≤ t.since range.start / n ∧ t.since range.start / n + 1 < 18446744073709551616 := by
  have hnonneg := Instant.since_nonneg hafter
  have hseconds := Instant.since_le_seconds t range.start
  have hquotient : t.since range.start / n ≤ t.since range.start :=
    Int.ediv_le_self n hnonneg
  have hlow := range.start.inRange
  have hhigh := t.inRange
  exact ⟨Int.ediv_nonneg hnonneg (by omega), by omega⟩

include hstep

theorem TimeRange.intervalCount_of_le (hordered : range.start ≤ range.finish) :
    range.intervalCount step = .ok (range.intervals n) := by
  have hnonneg := Instant.since_nonneg hordered
  obtain ⟨hpos, hbound⟩ := Instant.since_div_lt hn hordered
  unfold intervalCount intervals
  rw [hstep, if_neg (by omega), Int.tdiv_eq_ediv_of_nonneg hnonneg]
  simp only
  rw [Int.emod_eq_of_lt (by omega) hbound, Int.toNat_add hpos (by decide)]
  rfl

/-- An instant of the range is counted if its quotient is at most that of the end. -/
theorem Grid.isSome_slot?_iff {t : Instant} (hinside : range.Contains t) :
    ((Grid.mk range step (range.intervals n)).slot? .bucketed t).isSome = true ↔
      t.since range.start / n ≤ range.finish.since range.start / n := by
  have hbounds : ¬(t < range.start ∨ range.finish < t) :=
    fun houtside => TimeRange.not_contains_iff.mpr houtside hinside
  obtain ⟨hafter, hbefore⟩ := hinside
  have hordered : range.start ≤ range.finish := Int.le_trans hafter hbefore
  obtain ⟨hpos, hfits⟩ := Instant.since_div_lt hn hafter
  obtain ⟨hfinish, -⟩ := Instant.since_div_lt hn hordered
  unfold slot? TimeRange.intervals
  simp only [hbounds, if_false, reduceCtorEq, false_and, hstep]
  rw [Int.tdiv_eq_ediv_of_nonneg (Instant.since_nonneg hafter), Int.emod_eq_of_lt hpos (by omega)]
  split
  · simp only [Option.isSome_some, true_iff]
    omega
  · simp only [Option.isSome_none, Bool.false_eq_true, false_iff]
    omega

theorem Grid.isSome_slot?_bucketed {t : Instant} (hinside : range.Contains t) :
    ((Grid.mk range step (range.intervals n)).slot? .bucketed t).isSome =
      !decide (range.Loses n t) := by
  rw [Bool.eq_iff_iff, isSome_slot?_iff hn hstep hinside, Bool.not_eq_true',
    decide_eq_false_iff_not]
  unfold TimeRange.Loses
  by_cases hbehind : Instant.Outruns range.start range.finish t
  · obtain ⟨hsince, hlast⟩ := hbehind.since_eq
    rw [hsince, hlast]
    generalize range.finish.seconds - range.start.seconds = span
    have hquotient := Int.mul_ediv_add_emod span n
    have hremainder := Int.emod_nonneg span (by omega : n ≠ 0)
    rw [Int.le_ediv_iff_mul_le (by omega), Int.dvd_iff_emod_eq_zero, Int.mul_comm]
    simp only [hbehind, true_and]
    omega
  · simp only [hbehind, false_and, not_false_eq_true, iff_true]
    exact Int.ediv_le_ediv (by omega) (Instant.since_le_since hinside.2 hbehind)

end Range
end ZoneDemand
