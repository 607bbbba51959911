import ZoneDemand.Proofs.Instant.Order
import ZoneDemand.Resample

/-!
# The interval of a pickup

Without leap seconds, a pickup is counted in interval `k` exactly if its time lies in the
range and is the start of that interval, or lies between its start and the next one.  No
number of intervals between two instants of the calendar leaves 64 bits.
-/

namespace ZoneDemand

/-- The policy counts a pickup of time `t` in interval `k` of a series that starts at
`first`, with steps of `n` seconds. -/
def ResamplePolicy.Counts (policy : ResamplePolicy) (first : Instant) (n : Int) (k : Nat)
    (t : Instant) : Prop :=
  match policy with
  | .exact => t.seconds = first.seconds + k * n
  | .bucketed => first.seconds + k * n ≤ t.seconds ∧ t.seconds < first.seconds + (k + 1) * n

instance (policy : ResamplePolicy) (first : Instant) (n : Int) (k : Nat) (t : Instant) :
    Decidable (policy.Counts first n k t) := by
  unfold ResamplePolicy.Counts
  cases policy <;> infer_instance

/-- The number of boundaries of a range that lie a multiple of `n` seconds after its start. -/
def TimeRange.size (range : TimeRange) (n : Int) : Nat :=
  ((range.finish.seconds - range.start.seconds) / n).toNat + 1

theorem TimeRange.lt_size_iff {range : TimeRange} {n : Int} {k : Nat} (hn : 1 ≤ n)
    (hordered : range.start.seconds ≤ range.finish.seconds) :
    k < range.size n ↔ range.start.seconds + k * n ≤ range.finish.seconds := by
  have hnonneg : 0 ≤ (range.finish.seconds - range.start.seconds) / n :=
    Int.ediv_nonneg (by omega) (by omega)
  have hquotient := Int.le_ediv_iff_mul_le (a := k)
    (b := range.finish.seconds - range.start.seconds) (by omega : 0 < n)
  unfold size
  omega

def TimeRange.Contains (range : TimeRange) (t : Instant) : Prop :=
  range.start ≤ t ∧ t ≤ range.finish

instance (range : TimeRange) (t : Instant) : Decidable (range.Contains t) :=
  inferInstanceAs (Decidable (_ ∧ _))

theorem TimeRange.not_contains_iff {range : TimeRange} {t : Instant} :
    ¬range.Contains t ↔ t < range.start ∨ range.finish < t := by
  unfold Contains
  rw [Decidable.not_and_iff_not_or_not]
  exact or_congr Int.not_le Int.not_le

/-- The time lies in the range, and the policy counts it in an interval of the range. -/
def ResamplePolicy.CountsWithin (policy : ResamplePolicy) (range : TimeRange) (n : Int)
    (t : Instant) : Prop :=
  range.Contains t ∧ ∃ k < range.size n, policy.Counts range.start n k t

instance (policy : ResamplePolicy) (range : TimeRange) (n : Int) (t : Instant) :
    Decidable (policy.CountsWithin range n t) :=
  inferInstanceAs (Decidable (_ ∧ _))

theorem Grid.slot?_of_not_contains {grid : Grid} {t : Instant} (houtside : ¬grid.range.Contains t)
    (policy : ResamplePolicy) : grid.slot? policy t = none := by
  unfold slot?
  rw [if_pos (TimeRange.not_contains_iff.mp houtside)]

theorem Grid.lt_size_of_slot? {grid : Grid} {policy : ResamplePolicy} {t : Instant} {k : Nat}
    (hslot : grid.slot? policy t = some k) : k < grid.size := by
  unfold slot? at hslot
  grind

section Range

variable {range : TimeRange} {step : Step} {n : Int} (hn : 1 ≤ n) (hstep : step.seconds = n)
  (hstart : range.start.leap = false) (hfinish : range.finish.leap = false)
include hn hstart hfinish

theorem TimeRange.size_eq (hordered : range.start ≤ range.finish) :
    (range.size n : Int) = (range.finish.seconds - range.start.seconds) / n + 1 := by
  have hle := (Instant.le_iff_seconds hstart hfinish).mp hordered
  have hnonneg : 0 ≤ (range.finish.seconds - range.start.seconds) / n :=
    Int.ediv_nonneg (by omega) (by omega)
  unfold size
  omega

include hstep

theorem TimeRange.intervalCount_eq (hordered : range.start ≤ range.finish) :
    range.intervalCount step = .ok (range.size n) := by
  have hle := (Instant.le_iff_seconds hstart hfinish).mp hordered
  have hlow := range.start.inRange
  have hhigh := range.finish.inRange
  have hsize := TimeRange.size_eq hn hstart hfinish hordered
  have hbound : (range.finish.seconds - range.start.seconds) / n ≤
      range.finish.seconds - range.start.seconds :=
    Int.ediv_le_self n (by omega)
  unfold intervalCount
  rw [Instant.since_of_regular hfinish hstart, hstep, if_neg (by omega),
    Int.tdiv_eq_ediv_of_nonneg (by omega)]
  simp only
  rw [← hsize, Int.emod_eq_of_lt (by omega) (by omega), Int.toNat_natCast]

theorem Grid.slot?_eq_some_iff {t : Instant} (hregular : t.leap = false)
    (hafter : range.start ≤ t) (hbefore : t ≤ range.finish) (policy : ResamplePolicy) (k : Nat) :
    (Grid.mk range step (range.size n)).slot? policy t = some k ↔
      policy.Counts range.start n k t := by
  have hlower := (Instant.le_iff_seconds hstart hregular).mp hafter
  have hupper := (Instant.le_iff_seconds hregular hfinish).mp hbefore
  have hinside : ¬(t < range.start ∨ range.finish < t) :=
    fun houtside => TimeRange.not_contains_iff.mpr houtside ⟨hafter, hbefore⟩
  have hlow := range.start.inRange
  have hhigh := range.finish.inRange
  unfold slot? TimeRange.size
  simp only [hinside, if_false, Instant.since_of_regular hregular hstart, hstep]
  generalize hoffset : t.seconds - range.start.seconds = offset
  generalize htotal : range.finish.seconds - range.start.seconds = total
  have hnonneg : 0 ≤ offset / n := Int.ediv_nonneg (by omega) (by omega)
  have hfits : offset / n ≤ total / n := Int.ediv_le_ediv (by omega) (by omega)
  have hbound : total / n ≤ total := Int.ediv_le_self n (by omega)
  rw [Int.tdiv_eq_ediv_of_nonneg (by omega), Int.tmod_eq_emod_of_nonneg (by omega),
    Int.emod_eq_of_lt hnonneg (by omega), if_pos (by omega : (offset / n).toNat < _)]
  have hindex : (offset / n).toNat = k ↔ k * n ≤ offset ∧ offset < k * n + n := by
    rw [← Int.ediv_eq_iff_of_pos (by omega)]
    omega
  cases policy with
  | exact =>
      have haligned : offset % n = 0 ∧ (offset / n).toNat = k ↔ offset = k * n := by
        rw [show (offset / n).toNat = k ↔ offset / n = k by omega, and_comm,
          Int.ediv_emod_unique (by omega), Int.mul_comm]
        omega
      have hwindow : t.seconds = range.start.seconds + k * n ↔ offset = k * n := by omega
      simp only [true_and, ResamplePolicy.Counts]
      rw [hwindow, ← haligned]
      by_cases hzero : offset % n = 0 <;> simp [hzero]
  | bucketed =>
      simp only [reduceCtorEq, false_and, if_false, Option.some.injEq, ResamplePolicy.Counts]
      rw [hindex, Int.add_mul]
      omega

theorem Grid.slot?_eq_some_iff_contains {t : Instant} (hregular : t.leap = false)
    (policy : ResamplePolicy) (k : Nat) :
    (Grid.mk range step (range.size n)).slot? policy t = some k ↔
      range.Contains t ∧ policy.Counts range.start n k t := by
  by_cases hinside : range.Contains t
  · rw [Grid.slot?_eq_some_iff hn hstep hstart hfinish hregular hinside.1 hinside.2]
    simp [hinside]
  · rw [Grid.slot?_of_not_contains hinside]
    simp [hinside]

theorem Grid.isSome_slot?_eq {t : Instant} (hregular : t.leap = false)
    (policy : ResamplePolicy) :
    ((Grid.mk range step (range.size n)).slot? policy t).isSome =
      decide (policy.CountsWithin range n t) := by
  have hslot := Grid.slot?_eq_some_iff_contains hn hstep hstart hfinish hregular policy
  rw [Bool.eq_iff_iff, decide_eq_true_eq, Option.isSome_iff_exists]
  constructor
  · rintro ⟨k, hk⟩
    obtain ⟨hinside, hcounts⟩ := (hslot k).mp hk
    exact ⟨hinside, k, Grid.lt_size_of_slot? hk, hcounts⟩
  · rintro ⟨hinside, k, -, hcounts⟩
    exact ⟨k, (hslot k).mpr ⟨hinside, hcounts⟩⟩

end Range
end ZoneDemand
