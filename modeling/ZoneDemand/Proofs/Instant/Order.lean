import ZoneDemand.Instant
import ZoneDemand.Step

/-!
# The order of instants and the time between them

Instants are ordered by their seconds, and a leap second follows the second whose count it
shares.  Between instants that are no leap seconds, the seconds that pass are the difference
of their counts.
-/

namespace ZoneDemand

namespace Instant

theorem le_iff {a b : Instant} :
    a ≤ b ↔ a.seconds < b.seconds ∨ a.seconds = b.seconds ∧ (a.leap = true → b.leap = true) := by
  change a.rank ≤ b.rank ↔ _
  simp only [rank]
  cases a.leap <;> cases b.leap <;> simp <;> omega

theorem le_iff_seconds {a b : Instant} (ha : a.leap = false) (hb : b.leap = false) :
    a ≤ b ↔ a.seconds ≤ b.seconds := by
  change a.rank ≤ b.rank ↔ a.seconds ≤ b.seconds
  simp only [rank, ha, hb]
  omega

/-- A leap second adds a second from the first instant's time of day on; one at the start takes
a second away up to its time of day. -/
theorem since_eq (t first : Instant) :
    t.since first = t.seconds - first.seconds +
      (if t.leap = true ∧ first.timeOfDay ≤ t.timeOfDay then 1 else 0) -
      (if first.leap = true ∧ t.timeOfDay ≤ first.timeOfDay then 1 else 0) := by
  unfold since
  cases t.leap <;> cases first.leap <;> simp <;> grind

theorem since_of_regular {a b : Instant} (ha : a.leap = false) (hb : b.leap = false) :
    a.since b = a.seconds - b.seconds := by
  simp [since, ha, hb]

theorem since_le_seconds (t first : Instant) :
    t.since first ≤ t.seconds - first.seconds + 1 := by
  rw [since_eq]
  split <;> split <;> omega

theorem since_nonneg {t first : Instant} (hle : first ≤ t) : 0 ≤ t.since first := by
  rw [since_eq]
  rcases le_iff.mp hle with hlater | ⟨hsame, hleap⟩
  · split <;> split <;> omega
  · have htime : t.timeOfDay = first.timeOfDay := by rw [timeOfDay, timeOfDay, hsame]
    rw [htime, hsame]
    cases hfirst : first.leap with
    | false => simp; split <;> omega
    | true => simp [hleap hfirst]

theorem add?_of_regular {t : Instant} (hregular : t.leap = false) (n : Int) :
    t.add? n = ofSeconds? (t.seconds + n) := by
  unfold add?
  by_cases hzero : n = 0
  · obtain ⟨seconds, leap, hrange, hleap⟩ := t
    subst hzero
    simp only at hregular
    subst hregular
    simp [ofSeconds?, hrange]
  · simp [hzero, hregular]

end Instant

theorem Step.seconds_of_ofSeconds? {n : Int} {step : Step} (hstep : Step.ofSeconds? n = some step) :
    step.seconds = n := by
  unfold ofSeconds? ofMillis? at hstep
  split at hstep
  · rw [Option.some.injEq] at hstep
    rw [← hstep]
    exact Int.mul_tdiv_cancel_left n (by decide)
  · simp at hstep

/-! ## Times of one day

The thirteenth of December 2021, as if there were leap seconds at its end and before ten past
midnight.  Lists of pickups below take their times from it. -/

def midnight : Instant := ⟨1639353600, false, by decide, by decide⟩

def tenPast : Instant := ⟨1639354200, false, by decide, by decide⟩

def leapTen : Instant := ⟨1639354199, true, by decide, by decide⟩

def twentyPast : Instant := ⟨1639354800, false, by decide, by decide⟩

def leapSecond : Instant := ⟨1639439999, true, by decide, by decide⟩

def nextTenPast : Instant := ⟨1639440600, false, by decide, by decide⟩

def tenMinutes : Step := ⟨600000, by decide⟩

end ZoneDemand
