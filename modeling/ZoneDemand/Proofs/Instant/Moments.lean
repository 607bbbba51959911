import Mathlib.Order.Lattice
import ZoneDemand.Proofs.Instant.Order

/-!
# Moments and durations

A moment is an instant and a fraction of a second after it, in nanoseconds.  Moments that are no
leap seconds are ordered by the nanoseconds since 1970-01-01 00:00:00, and the time between two of
them is the difference of these.  Adding whole seconds to one gives the moment so many seconds
later exactly if the calendar reaches it.  After a leap second the time to a later moment may be
negative, but by less than a second.
-/

namespace ZoneDemand

/-- A signed duration in nanoseconds whose whole milliseconds fit 64 bits. -/
structure Duration where
  nanos : Int
  bounded : -9223372036854775807000000 ≤ nanos ∧ nanos ≤ 9223372036854775807000000

namespace Duration

/-- The whole seconds of a duration, the fraction being cut off. -/
def seconds (d : Duration) : Int := d.nanos.tdiv 1000000000

theorem one_le_seconds_iff (d : Duration) : 1 ≤ d.seconds ↔ 1000000000 ≤ d.nanos := by
  have hpos : (0 : Int) < 1000000000 := by decide
  constructor
  · intro hseconds
    by_cases hlt : d.nanos ≤ 999999999
    · have hzero : d.seconds ≤ 0 := Int.tdiv_le_tdiv hpos hlt
      omega
    · omega
  · exact Int.tdiv_le_tdiv hpos

end Duration

/-- The duration of a step. -/
def Step.fine (step : Step) : Duration where
  nanos := 1000000 * step.millis
  bounded := by
    have hbounded := step.bounded
    omega

@[simp] theorem Step.seconds_fine (step : Step) : step.fine.seconds = step.seconds :=
  Int.mul_tdiv_mul_of_pos step.millis 1000 (by decide : (0 : Int) < 1000000)

structure Moment where
  instant : Instant
  nanos : Nat
  nanos_lt : nanos < 1000000000
deriving DecidableEq

/-- The moment at the start of a second. -/
def Instant.fine (t : Instant) : Moment := ⟨t, 0, by decide⟩

def Instant.threeTenths (t : Instant) : Moment := ⟨t, 300000000, by decide⟩

def Instant.eightTenths (t : Instant) : Moment := ⟨t, 800000000, by decide⟩

namespace Moment

def leap (m : Moment) : Bool := m.instant.leap

/-- Nanoseconds since 1970-01-01 00:00:00, leap seconds left out. -/
def count (m : Moment) : Int := 1000000000 * m.instant.seconds + m.nanos

/-- Moments are ordered by this number. -/
def rank (m : Moment) : Int := 1000000000 * m.instant.rank + m.nanos

theorem rank_injective : Function.Injective rank := by
  intro a b h
  obtain ⟨t, n, hn⟩ := a
  obtain ⟨t', n', hn'⟩ := b
  simp only [rank] at h
  have hinstant : t = t' := Instant.rank_injective (by omega)
  subst hinstant
  simp only [mk.injEq, true_and]
  omega

instance : LinearOrder Moment := LinearOrder.lift' rank rank_injective

/-- Nanoseconds from `b` to `a`. -/
def since (a b : Moment) : Int :=
  1000000000 * a.instant.since b.instant + ((a.nanos : Int) - b.nanos)

/-- The whole seconds from `b` to `a`, the fraction being cut off. -/
def secondsSince (a b : Moment) : Int := (a.since b).tdiv 1000000000

/-- The moment `n` seconds later, unless the calendar does not reach it. -/
def add? (m : Moment) (n : Int) : Option Moment :=
  (m.instant.add? n).map fun t => { m with instant := t }

/-- So many nanoseconds after 1970-01-01 00:00:00 it is a day from -262143-01-01 to
262142-12-31. -/
def InCalendar (n : Int) : Prop :=
  86400000000000 * (Date.mk (-262143) 1 1).dayNumber ≤ n ∧
    n < 86400000000000 * ((Date.mk 262142 12 31).dayNumber + 1)

theorem inCalendar_iff {n : Int} :
    InCalendar n ↔ -8334601228800000000000 ≤ n ∧ n < 8210266876800000000000 := by
  have hfirst := Instant.first_second
  have hlast := Instant.last_second
  unfold Instant.daySeconds at hfirst hlast
  unfold InCalendar
  omega

theorem inCalendar_count (m : Moment) : InCalendar m.count := by
  have hrange := m.instant.inRange
  have hnanos := m.nanos_lt
  rw [inCalendar_iff]
  unfold count
  omega

/-! ## The time to a later moment -/

section Later

variable {t first : Moment} (hle : first ≤ t)
include hle

theorem instant_le : first.instant ≤ t.instant := by
  have hrank : first.rank ≤ t.rank := hle
  have hnanos := first.nanos_lt
  have hnanos' := t.nanos_lt
  unfold rank at hrank
  change first.instant.rank ≤ t.instant.rank
  omega

/-- From the last nanosecond of a leap second to midnight, a nanosecond less than a second is
missing. -/
theorem since_gt : -1000000000 < t.since first := by
  have hseconds := Instant.since_nonneg (instant_le hle)
  have hnanos := first.nanos_lt
  unfold since
  omega

theorem secondsSince_nonneg : 0 ≤ t.secondsSince first := by
  have hgt := since_gt hle
  exact Int.tdiv_le_tdiv (by decide) (show -999999999 ≤ t.since first by omega)

theorem secondsSince_le :
    t.secondsSince first ≤ t.instant.seconds - first.instant.seconds + 1 := by
  have hseconds := Instant.since_le_seconds t.instant first.instant
  have hnonneg : 0 ≤ t.instant.seconds - first.instant.seconds := by
    rcases Instant.le_iff.mp (instant_le hle) with hlater | ⟨hsame, -⟩ <;> omega
  have hnanos := t.nanos_lt
  have hbound : t.since first ≤
      1000000000 * (t.instant.seconds - first.instant.seconds + 1) + 999999999 := by
    unfold since
    omega
  have hcut := Int.tdiv_le_tdiv (by decide : (0 : Int) < 1000000000) hbound
  rw [Int.tdiv_eq_ediv_of_nonneg (by omega) (a := _ + _)] at hcut
  unfold secondsSince
  omega

end Later

/-! ## Moments that are no leap seconds -/

section Regular

variable {a b : Moment} (ha : a.leap = false) (hb : b.leap = false)

section Two

include ha hb

theorem le_iff_count : a ≤ b ↔ a.count ≤ b.count := by
  have hnanos := a.nanos_lt
  have hnanos' := b.nanos_lt
  change a.rank ≤ b.rank ↔ _
  unfold leap at ha hb
  simp only [rank, Instant.rank, ha, hb, count]
  omega

theorem lt_iff_count : a < b ↔ a.count < b.count := by
  rw [← not_le, le_iff_count hb ha, Int.not_le]

theorem since_of_regular : a.since b = a.count - b.count := by
  unfold since count
  rw [Instant.since_of_regular ha hb]
  omega

end Two

include ha

/-- Adding seconds keeps the fraction, and gives no leap second. -/
theorem add?_eq_some_iff (n : Int) :
    a.add? n = some b ↔ b.leap = false ∧ b.count = a.count + 1000000000 * n := by
  have hnanos := a.nanos_lt
  have hnanos' := b.nanos_lt
  have hrange := b.instant.inRange
  rw [add?, Instant.add?_of_regular ha, Instant.ofSeconds?]
  obtain ⟨⟨seconds, isLeap, hcalendar, hends⟩, nanos, hlt⟩ := b
  simp only [leap, count] at *
  split
  · simp only [Option.map_some, Option.some.injEq, mk.injEq, Instant.mk.injEq]
    grind
  · simp only [Option.map_none, reduceCtorEq, false_iff, not_and]
    omega

theorem add?_eq_none_iff (n : Int) :
    a.add? n = none ↔ ¬InCalendar (a.count + 1000000000 * n) := by
  have hnanos := a.nanos_lt
  rw [inCalendar_iff, add?, Option.map_eq_none_iff, Instant.add?_of_regular ha,
    Instant.ofSeconds?, count]
  split
  · simp only [reduceCtorEq, false_iff, not_not]
    omega
  · simp only [true_iff]
    omega

end Regular

/-! ## Moments at the start of a second -/

section Fine

variable (a b : Instant)

@[simp] theorem fine_le_iff : a.fine ≤ b.fine ↔ a ≤ b := by
  change a.fine.rank ≤ b.fine.rank ↔ a.rank ≤ b.rank
  simp only [rank, Instant.fine]
  omega

@[simp] theorem fine_lt_iff : a.fine < b.fine ↔ a < b := by
  rw [← not_le, fine_le_iff]
  exact Int.not_le

theorem fine_min : (a.min b).fine = min a.fine b.fine := by
  rw [min_def, Instant.min]
  simp only [fine_le_iff]
  by_cases hlt : b < a
  · rw [if_pos hlt, if_neg (show ¬a ≤ b from Int.not_le.mpr hlt)]
  · rw [if_neg hlt, if_pos (show a ≤ b from Int.not_lt.mp hlt)]

theorem fine_max : (a.max b).fine = max a.fine b.fine := by
  rw [max_def_lt, Instant.max]
  simp only [fine_lt_iff]
  by_cases hlt : b < a
  · have hnot : ¬a < b := Int.not_lt.mpr (Int.le_of_lt hlt)
    rw [if_pos hlt, if_neg hnot]
  · by_cases hless : a < b
    · rw [if_neg hlt, if_pos hless]
    · have hsame : a = b :=
        Instant.rank_injective (Int.le_antisymm (Int.not_lt.mp hlt) (Int.not_lt.mp hless))
      rw [if_neg hlt, if_neg hless, hsame]

@[simp] theorem secondsSince_fine : a.fine.secondsSince b.fine = a.since b := by
  unfold secondsSince since Instant.fine
  simp

@[simp] theorem add?_fine (n : Int) : a.fine.add? n = (a.add? n).map Instant.fine := rfl

end Fine

end Moment
end ZoneDemand
