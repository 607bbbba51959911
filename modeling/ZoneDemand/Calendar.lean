/-!
# The civil calendar

Dates of the proleptic Gregorian calendar and their numbering by days, day `0`
being 1970-01-01.  Internally a year runs from March to February, so that the
leap day comes last: the month `m` months after March starts
`(153 * m + 2) / 5` days into it.
-/

namespace ZoneDemand

structure Date where
  year : Int
  month : Nat
  day : Nat
deriving DecidableEq, Repr

namespace Date

def isLeapYear (year : Int) : Bool :=
  year % 4 = 0 && (year % 100 ≠ 0 || year % 400 = 0)

def daysInMonth (year : Int) (month : Nat) : Nat :=
  if month = 2 then if isLeapYear year then 29 else 28
  else if month = 4 ∨ month = 6 ∨ month = 9 ∨ month = 11 then 30
  else 31

def Valid (d : Date) : Prop :=
  1 ≤ d.month ∧ d.month ≤ 12 ∧ 1 ≤ d.day ∧ d.day ≤ daysInMonth d.year d.month

instance (d : Date) : Decidable d.Valid := by
  unfold Valid
  infer_instance

/-- Days from 0000-03-01 to 1970-01-01. -/
def epochDays : Int := 719468

/-- Days from 1970-01-01 to the date. -/
def dayNumber (d : Date) : Int :=
  let year := if d.month ≤ 2 then d.year - 1 else d.year
  let monthsAfterMarch : Nat := if d.month ≤ 2 then d.month + 9 else d.month - 3
  365 * year + year / 4 - year / 100 + year / 400 +
    ((153 * monthsAfterMarch + 2) / 5 + d.day : Nat) - 1 - epochDays

/-- The date a number of days after 1970-01-01.  A cycle of 400 years has 146097
days, a century of it 36524 and four years of it 1461, where the last century of
a cycle and the last year of four are one day longer. -/
def ofDayNumber (n : Int) : Date :=
  let cycle := (n + epochDays) / 146097
  let dayOfCycle := ((n + epochDays) % 146097).toNat
  let century := min 3 (dayOfCycle / 36524)
  let dayOfCentury := dayOfCycle - 36524 * century
  let quad := dayOfCentury / 1461
  let dayOfQuad := dayOfCentury % 1461
  let yearOfQuad := min 3 (dayOfQuad / 365)
  let dayOfYear := dayOfQuad - 365 * yearOfQuad
  let monthsAfterMarch := (5 * dayOfYear + 2) / 153
  let year := 400 * cycle + ((100 * century + 4 * quad + yearOfQuad : Nat) : Int)
  { year := if monthsAfterMarch < 10 then year else year + 1
    month := if monthsAfterMarch < 10 then monthsAfterMarch + 3 else monthsAfterMarch - 9
    day := dayOfYear - (153 * monthsAfterMarch + 2) / 5 + 1 }

end Date
end ZoneDemand
