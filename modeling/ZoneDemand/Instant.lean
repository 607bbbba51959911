import ZoneDemand.Calendar

/-!
# Instants

An instant is a second of the civil calendar without a time zone, counted from
1970-01-01 00:00:00.  The last second of a minute may be followed by a leap
second, which is written `:60` and shares its count with that second.
-/

namespace ZoneDemand

structure Instant where
  seconds : Int
  leap : Bool
  /-- The years run from -262143 to 262142. -/
  inRange : -8334601228800 ≤ seconds ∧ seconds ≤ 8210266876799
  leap_endsMinute : leap = true → seconds % 60 = 59
deriving DecidableEq

namespace Instant

def daySeconds : Int := 86400

theorem first_second : daySeconds * (Date.mk (-262143) 1 1).dayNumber = -8334601228800 := by
  decide

theorem last_second :
    daySeconds * (Date.mk 262142 12 31).dayNumber + (daySeconds - 1) = 8210266876799 := by
  decide

/-- The instant with that count, unless the calendar does not reach it. -/
def ofSeconds? (seconds : Int) : Option Instant :=
  if h : -8334601228800 ≤ seconds ∧ seconds ≤ 8210266876799 then
    some ⟨seconds, false, h, by simp⟩
  else none

/-- The leap second after the second with that count, which must end a minute. -/
def leapAfter? (seconds : Int) : Option Instant :=
  if h : (-8334601228800 ≤ seconds ∧ seconds ≤ 8210266876799) ∧ seconds % 60 = 59 then
    some ⟨seconds, true, h.1, fun _ => h.2⟩
  else none

/-- Instants are ordered by this number; a leap second comes after the second it
follows and before the next minute. -/
def rank (t : Instant) : Int := 2 * t.seconds + if t.leap then 1 else 0

instance : LE Instant := ⟨fun a b => a.rank ≤ b.rank⟩

instance : LT Instant := ⟨fun a b => a.rank < b.rank⟩

instance (a b : Instant) : Decidable (a ≤ b) :=
  inferInstanceAs (Decidable (a.rank ≤ b.rank))

instance (a b : Instant) : Decidable (a < b) :=
  inferInstanceAs (Decidable (a.rank < b.rank))

theorem rank_injective {a b : Instant} (h : a.rank = b.rank) : a = b := by
  obtain ⟨s, l, _, _⟩ := a
  obtain ⟨s', l', _, _⟩ := b
  simp only [rank] at h
  simp only [mk.injEq]
  cases l <;> cases l' <;> simp at h ⊢ <;> omega

protected def min (a b : Instant) : Instant := if b < a then b else a

protected def max (a b : Instant) : Instant := if b < a then a else b

def date (t : Instant) : Date := Date.ofDayNumber (t.seconds / daySeconds)

def timeOfDay (t : Instant) : Int := t.seconds % daySeconds

/-- Seconds from `b` to `a`.  A leap second lasts a second of its own, and within
one day the seconds after it come one second later. -/
def since (a b : Instant) : Int :=
  let leaps : Int := (if a.leap then 1 else 0) - if b.leap then 1 else 0
  let shift : Int :=
    if b.leap ∧ b.timeOfDay < a.timeOfDay then 1
    else if a.leap ∧ a.timeOfDay < b.timeOfDay then -1
    else 0
  a.seconds - b.seconds + leaps + shift

/-- The instant `n` seconds later, unless the calendar does not reach it.  Going
back from a leap second starts at the minute after it. -/
def add? (t : Instant) (n : Int) : Option Instant :=
  if n = 0 then some t
  else if t.leap ∧ n < 0 then ofSeconds? (t.seconds + 1 + n)
  else ofSeconds? (t.seconds + n)

@[simp] theorem add?_zero (t : Instant) : t.add? 0 = some t := by simp [add?]

end Instant
end ZoneDemand
