import ZoneDemand.Instant.Text
import ZoneDemand.Proofs.Calendar

/-!
# Instants by date and time of day

Every instant has a date of the calendar and a time of day, in which a leap second is second 60
of its minute, and every date with a time of day is that of an instant.
-/

namespace ZoneDemand

/-- A date of the calendar and a time of day. -/
@[ext]
structure CivilTime where
  date : Date
  hour : Nat
  minute : Nat
  second : Nat
  valid : date.Valid
  year : -262143 ≤ date.year ∧ date.year ≤ 262142
  hour_le : hour ≤ 23
  minute_le : minute ≤ 59
  second_le : second ≤ 60

theorem CivilTime.day_le (c : CivilTime) : c.date.day ≤ 31 := by
  obtain ⟨-, -, -, hday⟩ := c.valid
  refine Nat.le_trans hday ?_
  unfold Date.daysInMonth
  grind

/-! ## The years of the calendar -/

namespace Date

/-- The valid dates of the calendar's years are those of its days. -/
theorem year_iff_dayNumber {d : Date} (hvalid : d.Valid) :
    -262143 ≤ d.year ∧ d.year ≤ 262142 ↔ -96465292 ≤ d.dayNumber ∧ d.dayNumber ≤ 95026236 := by
  have hbefore : dayNumber ⟨-262144, 12, 31⟩ = -96465293 := by decide
  have hfirst : dayNumber ⟨-262143, 1, 1⟩ = -96465292 := by decide
  have hlast : dayNumber ⟨262142, 12, 31⟩ = 95026236 := by decide
  have hafter : dayNumber ⟨262143, 1, 1⟩ = 95026237 := by decide
  constructor
  · rintro ⟨hlow, hhigh⟩
    have hstart := dayNumber_lt_of_year (d := ⟨-262144, 12, 31⟩) (by decide) hvalid
      (show -262144 < d.year by omega)
    have hend := dayNumber_lt_of_year (e := ⟨262143, 1, 1⟩) hvalid (by decide)
      (show d.year < 262143 by omega)
    omega
  · rintro ⟨hlow, hhigh⟩
    constructor
    · by_contra hless
      have hearly := dayNumber_lt_of_year (e := ⟨-262143, 1, 1⟩) hvalid (by decide)
        (show d.year < -262143 by omega)
      omega
    · by_contra hmore
      have hlate := dayNumber_lt_of_year (d := ⟨262142, 12, 31⟩) (by decide) hvalid
        (show 262142 < d.year by omega)
      omega

end Date

/-! ## From instants to dates and back -/

namespace Instant

theorem dayNumber_date (t : Instant) : t.date.dayNumber = t.seconds / daySeconds :=
  Date.dayNumber_ofDayNumber _

theorem valid_date (t : Instant) : t.date.Valid := Date.valid_ofDayNumber _

theorem year_date (t : Instant) : -262143 ≤ t.date.year ∧ t.date.year ≤ 262142 := by
  have hrange := t.inRange
  rw [Date.year_iff_dayNumber t.valid_date, t.dayNumber_date]
  unfold daySeconds
  omega

theorem timeOfDay_bounds (t : Instant) : 0 ≤ t.timeOfDay ∧ t.timeOfDay < 86400 := by
  unfold timeOfDay daySeconds
  omega

/-- The date and the time of day of an instant. -/
def civil (t : Instant) : CivilTime where
  date := t.date
  hour := t.timeOfDay.toNat / 3600
  minute := t.timeOfDay.toNat / 60 % 60
  second := t.timeOfDay.toNat % 60 + if t.leap then 1 else 0
  valid := t.valid_date
  year := t.year_date
  hour_le := by
    have hbounds := t.timeOfDay_bounds
    omega
  minute_le := by omega
  second_le := by split <;> omega

theorem ofSeconds?_seconds {t : Instant} (hregular : t.leap = false) :
    ofSeconds? t.seconds = some t := by
  obtain ⟨seconds, leap, hrange, hleap⟩ := t
  subst hregular
  rw [ofSeconds?, dif_pos hrange]

theorem leapAfter?_seconds {t : Instant} (hleap : t.leap = true) :
    leapAfter? t.seconds = some t := by
  obtain ⟨seconds, leap, hrange, hends⟩ := t
  subst hleap
  rw [leapAfter?, dif_pos ⟨hrange, hends rfl⟩]

end Instant

namespace CivilTime

def instant? (c : CivilTime) : Option Instant :=
  Timestamp.instant? c.date c.hour c.minute c.second

theorem instant?_civil (t : Instant) : t.civil.instant? = some t := by
  have hminutes : Instant.daySeconds * (t.seconds / Instant.daySeconds) +
      3600 * (t.timeOfDay.toNat / 3600 : Nat) + 60 * (t.timeOfDay.toNat / 60 % 60 : Nat) +
      (t.timeOfDay.toNat % 60 : Nat) = t.seconds := by
    unfold Instant.timeOfDay Instant.daySeconds
    omega
  unfold instant? Timestamp.instant? Instant.civil
  simp only
  rw [if_pos t.valid_date, t.dayNumber_date]
  cases hleap : t.leap with
  | false =>
      simp only [Bool.false_eq_true, if_false, Nat.add_zero]
      rw [if_neg (by omega), hminutes, Instant.ofSeconds?_seconds hleap]
  | true =>
      have hlast : t.timeOfDay.toNat % 60 = 59 := by
        have hends := t.leap_endsMinute hleap
        unfold Instant.timeOfDay Instant.daySeconds
        omega
      rw [hlast] at hminutes ⊢
      exact (congrArg Instant.leapAfter? hminutes).trans (Instant.leapAfter?_seconds hleap)

/-- The instant whose second of the minute is `s`, a leap second being counted as the second
before it. -/
theorem exists_civil_of_second {c : CivilTime} (s : Nat) (leap : Bool) (hs : s ≤ 59)
    (hleap : leap = true → s = 59) (hsecond : s + (if leap then 1 else 0) = c.second) :
    ∃ t : Instant, t.civil = c := by
  obtain ⟨date, hour, minute, second, hvalid, hyear, hhour, hminute, hbound⟩ := c
  simp only at hsecond
  have hdays := (Date.year_iff_dayNumber hvalid).mp hyear
  generalize hseconds : 86400 * date.dayNumber + 3600 * hour + 60 * minute + s = seconds
  have hends : leap = true → seconds % 60 = 59 := by
    intro h
    have hlast := hleap h
    omega
  have hday : seconds / Instant.daySeconds = date.dayNumber := by
    unfold Instant.daySeconds
    omega
  have htime : seconds % Instant.daySeconds = 3600 * hour + 60 * minute + s := by
    unfold Instant.daySeconds
    omega
  refine ⟨⟨seconds, leap, by omega, hends⟩, ?_⟩
  ext1
  · exact (congrArg Date.ofDayNumber hday).trans (Date.ofDayNumber_dayNumber hvalid)
  all_goals
    simp only [Instant.civil, Instant.timeOfDay, htime]
    omega

/-- Every date with a time of day is that of an instant. -/
theorem exists_civil_eq (c : CivilTime) : ∃ t : Instant, t.civil = c := by
  have hsecond := c.second_le
  by_cases hleap : c.second = 60
  · exact exists_civil_of_second 59 true (by omega) (fun _ => rfl) (by simp [hleap])
  · exact exists_civil_of_second c.second false (by omega) (by simp) (by simp)

end CivilTime
end ZoneDemand
