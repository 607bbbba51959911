import Mathlib.Data.List.Forall2
import ZoneDemand.Proofs.Instant.Order
import ZoneDemand.Split
import ZoneDemand.Text.Unsigned

/-!
# Cutting series

A split cuts the same number of intervals off every series, and fails on the first series that
would lose them all.  Cutting twice is cutting once by the sum, and an interval that remains
starts where it started.
-/

namespace ZoneDemand

namespace Series

/-- The series is another one without its last `n` intervals, and some are left. -/
structure CutFrom (n : Nat) (short s : Series) : Prop where
  nonempty : short.counts ≠ []
  geohash : short.geohash = s.geohash
  start : short.start = s.start
  step : short.step = s.step
  counts : ∃ tail, tail.length = n ∧ s.counts = short.counts ++ tail

variable {s short : Series} {n : Nat}

theorem cutFrom_withoutTail (hlong : n < s.size) : CutFrom n (s.withoutTail n) s where
  nonempty := by
    rw [← List.length_pos_iff]
    change 0 < (s.withoutTail n).size
    rw [size_withoutTail]
    omega
  geohash := rfl
  start := rfl
  step := rfl
  counts := by
    refine ⟨s.counts.drop (s.size - n), ?_, (List.take_append_drop _ _).symm⟩
    rw [List.length_drop, ← size]
    omega

theorem CutFrom.eq_withoutTail (h : CutFrom n short s) : short = s.withoutTail n := by
  obtain ⟨tail, hlength, hcounts⟩ := h.counts
  have hkept : s.counts.take (s.size - n) = short.counts := by
    rw [size, hcounts, List.length_append, hlength, Nat.add_sub_cancel, List.take_left]
  obtain ⟨geohash, start, step, counts⟩ := short
  obtain ⟨-, rfl, rfl, rfl, -⟩ := h
  rw [withoutTail, hkept]

theorem withoutTail_of_size_le (hshort : s.size ≤ n) :
    s.withoutTail n = { s with counts := [] } := by
  rw [withoutTail, Nat.sub_eq_zero_of_le hshort, List.take_zero]

theorem withoutTail_withoutTail (s : Series) (a b : Nat) :
    (s.withoutTail a).withoutTail b = s.withoutTail (a + b) := by
  unfold withoutTail size
  simp only [List.length_take, List.take_take, mk.injEq, true_and]
  congr 1
  omega

/-- No series has more intervals than a machine counts, so a larger cut is not needed. -/
theorem withoutTail_capped (hsize : s.size ≤ maxCount) (n : Nat) :
    s.withoutTail (min n maxCount) = s.withoutTail n := by
  rcases Nat.le_total n maxCount with hfits | hlarge
  · rw [Nat.min_eq_left hfits]
  · rw [Nat.min_eq_right hlarge, withoutTail_of_size_le hsize,
      withoutTail_of_size_le (Nat.le_trans hsize hlarge)]

theorem intervalStart?_withoutTail (s : Series) (n k : Nat) :
    (s.withoutTail n).intervalStart? k = s.intervalStart? k :=
  rfl

theorem end?_withoutTail (s : Series) (n : Nat) :
    (s.withoutTail n).end? = if s.size ≤ n then none else s.intervalStart? (s.size - n - 1) := by
  have hempty : (s.withoutTail n).isEmpty = decide (s.size ≤ n) := by
    rw [Bool.eq_iff_iff, isEmpty, List.isEmpty_iff_length_eq_zero, decide_eq_true_eq]
    change (s.withoutTail n).size = 0 ↔ _
    rw [size_withoutTail]
    omega
  rw [end?, hempty, size_withoutTail, intervalStart?_withoutTail]
  simp only [decide_eq_true_eq]

end Series

namespace Split

/-- The first series of a list that is no longer than the horizon. -/
def FirstShort (series : List Series) (horizon : Nat) (short : Series) : Prop :=
  ∃ before after, series = before ++ short :: after ∧ short.size ≤ horizon ∧
    ∀ s ∈ before, horizon < s.size

variable {series : List Series} {horizon : Nat}

theorem find?_eq_some_iff {short : Series} :
    (series.find? fun s => s.size ≤ horizon) = some short ↔ FirstShort series horizon short := by
  rw [List.find?_eq_some_iff_append]
  simp only [decide_eq_true_eq, Bool.not_eq_eq_eq_not, Bool.not_true, decide_eq_false_iff_not,
    Nat.not_le, FirstShort]
  grind

theorem find?_eq_none_iff :
    (series.find? fun s => s.size ≤ horizon) = none ↔ ∀ s ∈ series, horizon < s.size := by
  simp

theorem forall₂_cutFrom_iff {train : List Series} (hlong : ∀ s ∈ series, horizon < s.size) :
    List.Forall₂ (Series.CutFrom horizon) train series ↔
      train = series.map (·.withoutTail horizon) := by
  constructor
  · intro hcut
    induction hcut with
    | nil => rfl
    | cons hfirst _ ih =>
        rw [List.map_cons, ← hfirst.eq_withoutTail, ← ih fun s hs => hlong s (.tail _ hs)]
  · rintro rfl
    rw [List.forall₂_map_left_iff, List.forall₂_same]
    exact fun s hs => Series.cutFrom_withoutTail (hlong s hs)

theorem ofSeries_eq_error_iff {e : DataError} :
    ofSeries series horizon = .error e ↔
      ∃ short, FirstShort series horizon short ∧
        e = .tooShort short.geohash short.size horizon := by
  simp only [← find?_eq_some_iff]
  unfold ofSeries
  cases series.find? fun s => s.size ≤ horizon with
  | some short => simp [eq_comm]
  | none => simp

theorem ofSeries_eq_ok_iff {split : Split} :
    ofSeries series horizon = .ok split ↔
      (∀ s ∈ series, horizon < s.size) ∧ split.test = series ∧ split.horizon = horizon ∧
        List.Forall₂ (Series.CutFrom horizon) split.train split.test := by
  rw [← find?_eq_none_iff]
  unfold ofSeries
  cases hfind : series.find? fun s => s.size ≤ horizon with
  | some short => simp
  | none =>
      obtain ⟨train, test, number⟩ := split
      simp only [Except.ok.injEq, mk.injEq, true_and]
      constructor
      · rintro ⟨rfl, rfl, rfl⟩
        exact ⟨rfl, rfl, (forall₂_cutFrom_iff (find?_eq_none_iff.mp hfind)).mpr rfl⟩
      · rintro ⟨rfl, rfl, htrain⟩
        exact ⟨((forall₂_cutFrom_iff (find?_eq_none_iff.mp hfind)).mp htrain).symm, rfl, rfl⟩

theorem exists_firstShort_iff :
    (∃ short, FirstShort series horizon short) ↔ ∃ s ∈ series, s.size ≤ horizon := by
  simp only [← find?_eq_some_iff]
  rw [← Option.isSome_iff_exists, List.find?_isSome]
  simp

/-- A split fails exactly if a series is no longer than the horizon, and then names the first one.
Otherwise every series of the training data is one of the test data cut by the horizon.  Cuts
add up, and what they leave keeps its times. -/
theorem ofSeries_fails_or_cuts (series : List Series) (horizon : Nat) :
    ((∃ e, ofSeries series horizon = .error e) ↔ ∃ s ∈ series, s.size ≤ horizon) ∧
    (∀ e, ofSeries series horizon = .error e ↔
      ∃ short, FirstShort series horizon short ∧
        e = .tooShort short.geohash short.size horizon) ∧
    (∀ split, ofSeries series horizon = .ok split ↔
      (∀ s ∈ series, horizon < s.size) ∧ split.test = series ∧ split.horizon = horizon ∧
        List.Forall₂ (Series.CutFrom horizon) split.train split.test) ∧
    ∀ s : Series,
      (s.size ≤ maxCount →
        ∀ a b, (s.withoutTail a).withoutTail b = s.withoutTail (min (a + b) maxCount)) ∧
      (∀ n, (s.withoutTail n).size = s.size - n) ∧
      (∀ n, ∀ k < (s.withoutTail n).size,
        (s.withoutTail n).intervalStart? k = s.intervalStart? k) ∧
      ∀ n, (s.withoutTail n).end? =
        if s.size ≤ n then none else s.intervalStart? (s.size - n - 1) := by
  have hfails : (∃ e, ofSeries series horizon = .error e) ↔ ∃ s ∈ series, s.size ≤ horizon := by
    rw [← exists_firstShort_iff]
    simp only [ofSeries_eq_error_iff]
    grind
  have hcut : ∀ s : Series, s.size ≤ maxCount →
      ∀ a b, (s.withoutTail a).withoutTail b = s.withoutTail (min (a + b) maxCount) := by
    intro s hsize a b
    rw [Series.withoutTail_withoutTail, Series.withoutTail_capped hsize]
  exact ⟨hfails, fun e => ofSeries_eq_error_iff, fun split => ofSeries_eq_ok_iff, fun s =>
    ⟨hcut s, s.size_withoutTail, fun n k _ => s.intervalStart?_withoutTail n k,
      s.end?_withoutTail⟩⟩

def threeIntervals : Series := ⟨"9q8yy", midnight, tenMinutes, [4, 0, 7]⟩

def twoIntervals : Series := ⟨"9q8yz", midnight, tenMinutes, [1, 2]⟩

theorem threeIntervals_cut :
    ofSeries [threeIntervals, twoIntervals] 2 = .error (.tooShort "9q8yz" 2 2) ∧
      threeIntervals.size ≤ maxCount ∧
      (threeIntervals.withoutTail 1).withoutTail maxCount =
        threeIntervals.withoutTail (min (1 + maxCount) maxCount) ∧
      (threeIntervals.withoutTail 1).end? = some tenPast := by
  have hsize : threeIntervals.size ≤ maxCount := by decide
  have hfirst : FirstShort [threeIntervals, twoIntervals] 2 twoIntervals :=
    ⟨[threeIntervals], [], rfl, by decide, by decide⟩
  obtain ⟨-, hfails, -, hcuts⟩ := ofSeries_fails_or_cuts [threeIntervals, twoIntervals] 2
  obtain ⟨hcut, -, -, hend⟩ := hcuts threeIntervals
  exact ⟨(hfails _).mpr ⟨twoIntervals, hfirst, rfl⟩, hsize, hcut hsize 1 maxCount,
    (hend 1).trans (by decide)⟩

end Split
end ZoneDemand
