import Mathlib.Tactic.IntervalCases
import ZoneDemand.Calendar

/-!
# The dates of the calendar

Every number of days has a date, which is valid and has that number, and no other valid date has
it.  The number of a day is split into cycles, centuries, groups of four years, years and days of
the year from March on; only the last year of such a group has a day 365, and in a century that
is not the last of its cycle the last group has none.
-/

namespace ZoneDemand
namespace Date

/-- The date of a day of the year that starts in March of `year`. -/
def ofMarch (year : Int) (dayOfYear : Nat) : Date :=
  let monthsAfterMarch := (5 * dayOfYear + 2) / 153
  { year := if monthsAfterMarch < 10 then year else year + 1
    month := if monthsAfterMarch < 10 then monthsAfterMarch + 3 else monthsAfterMarch - 9
    day := dayOfYear - (153 * monthsAfterMarch + 2) / 5 + 1 }

/-- The splitting of a number of days from 0000-03-01. -/
structure Parts (days cycle : Int) (century quad year day : Nat) : Prop where
  sum : days = 146097 * cycle + (36524 * century + 1461 * quad + 365 * year + day : Nat)
  century_le : century ≤ 3
  quad_le : quad ≤ 24
  year_le : year ≤ 3
  day_le : day ≤ 365
  leap : day = 365 → year = 3 ∧ (quad = 24 → century = 3)

theorem ofDayNumber_eq (n : Int) :
    ∃ cycle century quad year day, Parts (n + epochDays) cycle century quad year day ∧
      ofDayNumber n =
        ofMarch (400 * cycle + ((100 * century + 4 * quad + year : Nat) : Int)) day := by
  refine ⟨_, _, _, _, _, ?_, rfl⟩
  constructor <;> omega

theorem dayNumber_ofMarch (year : Int) {day : Nat} (hday : day ≤ 365) :
    (ofMarch year day).dayNumber =
      365 * year + year / 4 - year / 100 + year / 400 + day - epochDays := by
  unfold dayNumber ofMarch
  by_cases hspring : (5 * day + 2) / 153 < 10
  · simp only [hspring, if_true]
    rw [if_neg (by omega), if_neg (by omega)]
    omega
  · simp only [hspring, if_false]
    rw [if_pos (by omega), if_pos (by omega)]
    omega

theorem valid_ofMarch (year : Int) {day : Nat} (hday : day ≤ 365)
    (hleap : day = 365 → isLeapYear (year + 1) = true) : (ofMarch year day).Valid := by
  unfold Valid ofMarch daysInMonth
  by_cases hspring : (5 * day + 2) / 153 < 10
  · simp only [hspring, if_true]
    rw [if_neg (by omega)]
    refine ⟨by omega, by omega, by omega, ?_⟩
    split <;> omega
  · simp only [hspring, if_false]
    refine ⟨by omega, by omega, by omega, ?_⟩
    by_cases hjanuary : (5 * day + 2) / 153 = 10
    · rw [hjanuary, if_neg (by decide), if_neg (by decide)]
      omega
    · rw [if_pos (by omega)]
      by_cases hlast : day = 365
      · rw [if_pos (hleap hlast)]
        omega
      · split <;> omega

theorem dayNumber_ofDayNumber (n : Int) : (ofDayNumber n).dayNumber = n := by
  obtain ⟨cycle, century, quad, year, day, hparts, heq⟩ := ofDayNumber_eq n
  obtain ⟨hsum, hcentury, hquad, hyear, hday, -⟩ := hparts
  rw [heq, dayNumber_ofMarch _ hday]
  omega

theorem valid_ofDayNumber (n : Int) : (ofDayNumber n).Valid := by
  obtain ⟨cycle, century, quad, year, day, hparts, heq⟩ := ofDayNumber_eq n
  rw [heq]
  refine valid_ofMarch _ hparts.day_le fun hlast => ?_
  obtain ⟨hyear, hquad⟩ := hparts.leap hlast
  have hcentury := hparts.century_le
  have hquadLe := hparts.quad_le
  unfold isLeapYear
  simp only [Bool.and_eq_true, Bool.or_eq_true, decide_eq_true_eq]
  omega

/-- The days from 0000-03-01 to the first of March of a year. -/
def marchStart (year : Int) : Int := 365 * year + year / 4 - year / 100 + year / 400

theorem marchStart_mono {year later : Int} (hle : year ≤ later) :
    marchStart year ≤ marchStart later := by
  have hfour : year / 4 ≤ later / 4 := Int.ediv_le_ediv (by decide) hle
  have hcentury : later / 100 - year / 100 ≤ later - year := by omega
  have hcycle : year / 400 ≤ later / 400 := Int.ediv_le_ediv (by decide) hle
  unfold marchStart
  omega

/-- A year from March on has ended before the next one starts. -/
theorem marchStart_add_lt {year : Int} {day : Nat} (hday : day ≤ 365)
    (hleap : day = 365 → isLeapYear (year + 1) = true) :
    marchStart year + day < marchStart (year + 1) := by
  have hlast : day = 365 → (year + 1) % 4 = 0 ∧ ((year + 1) % 100 ≠ 0 ∨ (year + 1) % 400 = 0) := by
    intro h
    simpa [isLeapYear] using hleap h
  unfold marchStart
  omega

/-- Every valid date is a day of a year from March on. -/
theorem exists_ofMarch {d : Date} (hvalid : d.Valid) :
    ∃ year day, ofMarch year day = d ∧ day ≤ 365 ∧ (day = 365 → isLeapYear (year + 1) = true) := by
  obtain ⟨year, month, day⟩ := d
  obtain ⟨hmonth, hmonths, hday, hdays⟩ := hvalid
  simp only [daysInMonth] at hmonth hmonths hday hdays
  by_cases hspring : month ≤ 2
  · refine ⟨year - 1, (153 * (month + 9) + 2) / 5 + day - 1, ?_⟩
    rw [Int.sub_add_cancel]
    unfold ofMarch
    interval_cases month <;> simp only [mk.injEq] <;> grind
  · refine ⟨year, (153 * (month - 3) + 2) / 5 + day - 1, ?_⟩
    unfold ofMarch
    interval_cases month <;> simp only [mk.injEq] <;> grind

theorem dayNumber_injective {d e : Date} (hd : d.Valid) (he : e.Valid)
    (hsame : d.dayNumber = e.dayNumber) : d = e := by
  obtain ⟨year, day, rfl, hday, hleap⟩ := exists_ofMarch hd
  obtain ⟨other, otherDay, rfl, hother, hotherLeap⟩ := exists_ofMarch he
  have hcount : marchStart year + day = marchStart other + otherDay := by
    rw [dayNumber_ofMarch _ hday, dayNumber_ofMarch _ hother] at hsame
    unfold marchStart
    omega
  rcases Int.lt_trichotomy year other with hlt | rfl | hgt
  · have hbefore := marchStart_add_lt hday hleap
    have hlater := marchStart_mono (show year + 1 ≤ other by omega)
    omega
  · have hsameDay : day = otherDay := by omega
    rw [hsameDay]
  · have hbefore := marchStart_add_lt hother hotherLeap
    have hlater := marchStart_mono (show other + 1 ≤ year by omega)
    omega

theorem ofDayNumber_dayNumber {d : Date} (hvalid : d.Valid) : ofDayNumber d.dayNumber = d :=
  dayNumber_injective (valid_ofDayNumber _) hvalid (dayNumber_ofDayNumber _)

theorem marchStart_pred_le (year : Int) : marchStart (year - 1) + 365 ≤ marchStart year := by
  unfold marchStart
  omega

/-- The first of January is day 306 from March on, the last of December day 305. -/
theorem year_bounds {d : Date} (hvalid : d.Valid) :
    marchStart (d.year - 1) + 306 ≤ d.dayNumber + epochDays ∧
      d.dayNumber + epochDays ≤ marchStart d.year + 305 := by
  obtain ⟨hmonth, hmonths, hday, hdays⟩ := hvalid
  have hmarch := marchStart_pred_le d.year
  have hlength : daysInMonth d.year d.month ≤ 31 := by
    unfold daysInMonth
    grind
  unfold dayNumber
  by_cases hspring : d.month ≤ 2
  · simp only [hspring, if_true]
    unfold marchStart at *
    omega
  · simp only [hspring, if_false]
    unfold marchStart at *
    omega

theorem dayNumber_lt_of_year {d e : Date} (hd : d.Valid) (he : e.Valid) (hyear : d.year < e.year) :
    d.dayNumber < e.dayNumber := by
  have hlast := (year_bounds hd).2
  have hfirst := (year_bounds he).1
  have hbetween := marchStart_mono (show d.year ≤ e.year - 1 by omega)
  omega

end Date
end ZoneDemand
