import Mathlib.Algebra.Ring.Nat
import ZoneDemand.Store.Progress
import ZoneDemand.Text.Unsigned

/-!
# The percentages told of an object

The percentage of an object is told after a read if the read has made it grow.  So the
percentages told are those that reads have reached, each of them once and the smaller before
the larger, however far the single reads get.  An object read to its end has come to 100.
-/

namespace ZoneDemand

/-- The percentage to tell once `reached` octets of `size` have been read, where it was
`offset` before. -/
def percentGrown (size offset reached : Nat) : Option UInt8 :=
  if 100 * offset / size < 100 * reached / size then some (.ofNat (100 * reached / size))
  else none

theorem percent_le_hundred {size reached : Nat} (hle : reached ≤ size) :
    100 * reached / size ≤ 100 :=
  Nat.div_le_of_le_mul (by rw [Nat.mul_comm size]; exact Nat.mul_le_mul_left _ hle)

theorem toNat_percent {size reached : Nat} (hle : reached ≤ size) :
    (UInt8.ofNat (100 * reached / size)).toNat = 100 * reached / size := by
  have hhundred := percent_le_hundred hle
  rw [UInt8.toNat_ofNat']
  exact Nat.mod_eq_of_lt (by omega)

theorem mem_percentGrown_iff {size offset reached : Nat} (hle : reached ≤ size) {p : UInt8} :
    p ∈ (percentGrown size offset reached).toList ↔
      100 * offset / size < 100 * reached / size ∧ p.toNat = 100 * reached / size := by
  unfold percentGrown
  split
  · rename_i hgrown
    rw [Option.toList_some, List.mem_singleton, ← UInt8.toNat_inj, toNat_percent hle]
    exact (and_iff_right hgrown).symm
  · rename_i hsame
    simp [hsame]

namespace PercentTracker

/-! ## The percentage after a call -/

section Call

variable (tracker : PercentTracker) (octets : UInt64)

/-- The percentage after a call, as words compute it. -/
def percentOf : UInt8 :=
  (min (tracker.consume octets) tracker.total * 100 / tracker.total).toUInt8

theorem toNat_consume :
    (tracker.consume octets).toNat = min (tracker.consumed.toNat + octets.toNat) maxCount := by
  have hconsumed := tracker.consumed.toNat_lt
  have hoctets := octets.toNat_lt
  have hsum : (tracker.consumed + octets).toNat =
      (tracker.consumed.toNat + octets.toNat) % 2 ^ 64 := UInt64.toNat_add _ _
  unfold consume maxCount
  split
  · rename_i hwrapped
    rw [UInt64.lt_iff_toNat_lt, hsum] at hwrapped
    change 18446744073709551615 = _
    omega
  · rename_i hfits
    rw [UInt64.lt_iff_toNat_lt, hsum] at hfits
    rw [hsum]
    omega

theorem toNat_min (a b : UInt64) : (min a b).toNat = min a.toNat b.toNat := by
  change (if a ≤ b then a else b).toNat = _
  simp only [Nat.min_def, UInt64.le_iff_toNat_le]
  split <;> rfl

theorem percent_word_le_hundred {total counted : Nat} (hle : counted ≤ total) :
    100 * counted % 2 ^ 64 / total ≤ 100 :=
  Nat.le_trans (Nat.div_le_div_right (Nat.mod_le _ _)) (percent_le_hundred hle)

/-- Of the steps of the computation only the product can leave its word. -/
theorem toNat_percentOf : (tracker.percentOf octets).toNat =
    100 * min (tracker.consume octets).toNat tracker.total.toNat % 2 ^ 64 /
      tracker.total.toNat := by
  have hword : (min (tracker.consume octets) tracker.total * 100 / tracker.total).toNat =
      100 * min (tracker.consume octets).toNat tracker.total.toNat % 2 ^ 64 /
        tracker.total.toNat := by
    rw [UInt64.toNat_div, UInt64.toNat_mul, toNat_min, Nat.mul_comm]
    rfl
  have hhundred := percent_word_le_hundred
    (Nat.min_le_right (tracker.consume octets).toNat tracker.total.toNat)
  rw [percentOf, UInt64.toNat_toUInt8, hword]
  exact Nat.mod_eq_of_lt (by omega)

theorem percentOf_le_hundred : tracker.percentOf octets ≤ 100 := by
  rw [UInt8.le_iff_toNat_le, toNat_percentOf]
  exact percent_word_le_hundred (Nat.min_le_right _ _)

/-- A total of 0 stops the call at once; otherwise it counts, and tells a percentage that has
grown. -/
theorem advance_cases :
    tracker.total = 0 ∧ tracker.advance octets = (tracker, none) ∨
    tracker.total ≠ 0 ∧ tracker.percent < tracker.percentOf octets ∧
      tracker.advance octets =
        (⟨tracker.total, tracker.consume octets, tracker.percentOf octets⟩,
          some (tracker.percentOf octets)) ∨
    tracker.total ≠ 0 ∧ ¬tracker.percent < tracker.percentOf octets ∧
      tracker.advance octets =
        (⟨tracker.total, tracker.consume octets, tracker.percent⟩, none) := by
  unfold advance percentOf
  by_cases hzero : tracker.total = 0
  · exact .inl ⟨hzero, if_pos hzero⟩
  · refine .inr ?_
    simp only [if_neg hzero]
    split
    · exact .inl ⟨hzero, ‹_›, rfl⟩
    · exact .inr ⟨hzero, ‹_›, rfl⟩

theorem advance_eq_some_iff {p : UInt8} :
    (tracker.advance octets).2 = some p ↔
      tracker.total ≠ 0 ∧ tracker.percentOf octets = p ∧ tracker.percent < p := by
  rcases tracker.advance_cases octets with ⟨hzero, h⟩ | ⟨hpos, hgrown, h⟩ | ⟨hpos, hsame, h⟩
  · simp [h, hzero]
  · rw [h]
    grind
  · rw [h]
    grind

/-- The tracker keeps the percentage that a call has told. -/
theorem percent_advance :
    (tracker.advance octets).2 = none ∧ (tracker.advance octets).1.percent = tracker.percent ∨
    ∃ p ≤ 100, tracker.percent < p ∧ (tracker.advance octets).2 = some p ∧
      (tracker.advance octets).1.percent = p := by
  rcases tracker.advance_cases octets with ⟨-, h⟩ | ⟨-, hgrown, h⟩ | ⟨-, -, h⟩
  · exact .inl (by rw [h]; exact ⟨rfl, rfl⟩)
  · exact .inr ⟨_, tracker.percentOf_le_hundred octets, hgrown, by rw [h], by rw [h]⟩
  · exact .inl (by rw [h]; exact ⟨rfl, rfl⟩)

end Call

/-! ## A tracker of octets read -/

/-- The tracker has counted `offset` octets of `size`, and its percentage is theirs. -/
structure At (tracker : PercentTracker) (size offset : Nat) : Prop where
  total : tracker.total.toNat = size
  consumed : tracker.consumed.toNat = offset
  percent : tracker.percent.toNat = 100 * offset / size

variable {tracker : PercentTracker} {size offset count : Nat}

theorem at_ofTotal (hsize : size < 2 ^ 64) : (ofTotal (.ofNat size)).At size 0 where
  total := by
    change (UInt64.ofNat size).toNat = size
    rw [UInt64.toNat_ofNat']
    exact Nat.mod_eq_of_lt hsize
  consumed := rfl
  percent := by simp [ofTotal]

/-- No octet is lost to an overflow. -/
theorem At.toNat_consume (hat : tracker.At size offset) (hsize : size < 2 ^ 64)
    (hle : offset + count ≤ size) : (tracker.consume (.ofNat count)).toNat = offset + count := by
  rw [PercentTracker.toNat_consume, hat.consumed, maxCount, UInt64.toNat_ofNat']
  omega

/-- Neither does the product with 100 overflow, if 100 times the size does not. -/
theorem At.percentOf_eq (hat : tracker.At size offset) (hsmall : 100 * size < 2 ^ 64)
    (hle : offset + count ≤ size) :
    tracker.percentOf (.ofNat count) = .ofNat (100 * (offset + count) / size) := by
  rw [← UInt8.toNat_inj, toNat_percentOf, hat.toNat_consume (by omega) hle, hat.total,
    Nat.min_eq_left hle, Nat.mod_eq_of_lt (by omega), toNat_percent hle]

theorem At.advance (hat : tracker.At size offset) (hsmall : 100 * size < 2 ^ 64)
    (hpos : 0 < size) (hle : offset + count ≤ size) :
    (tracker.advance (.ofNat count)).1.At size (offset + count) ∧
      (tracker.advance (.ofNat count)).2 = percentGrown size offset (offset + count) := by
  have hconsumed := hat.toNat_consume (by omega) hle
  have hpercent := hat.percentOf_eq hsmall hle
  have hword := toNat_percent hle
  unfold percentGrown
  rcases tracker.advance_cases (.ofNat count) with ⟨hzero, -⟩ | ⟨-, hgrown, h⟩ | ⟨-, hsame, h⟩
  · rw [← UInt64.toNat_inj, hat.total] at hzero
    exact absurd hzero (Nat.ne_of_gt hpos)
  · rw [UInt8.lt_iff_toNat_lt, hpercent, hword, hat.percent] at hgrown
    rw [h, hpercent, if_pos hgrown]
    exact ⟨⟨hat.total, hconsumed, hword⟩, rfl⟩
  · rw [UInt8.lt_iff_toNat_lt, hpercent, hword, hat.percent] at hsame
    have hmono : 100 * offset / size ≤ 100 * (offset + count) / size :=
      Nat.div_le_div_right (by omega)
    rw [h, if_neg hsame]
    refine ⟨⟨hat.total, hconsumed, ?_⟩, rfl⟩
    rw [hat.percent]
    omega

end PercentTracker

/-- The reading of an object: how many octets had been read after each of the reads, and the
percentages that have been told. -/
structure ObjectProgress where
  key : String
  size : Nat
  reached : List Nat
  percents : List UInt8

namespace ObjectProgress

def started (key : String) (size : Nat) : ObjectProgress := ⟨key, size, [], []⟩

/-- One more read, with the percentage told after it, if any. -/
def read (o : ObjectProgress) (reached : Nat) (percent : Option UInt8) : ObjectProgress :=
  { o with reached := o.reached ++ [reached], percents := o.percents ++ percent.toList }

/-- What is told of an object while it is being read. -/
def begun (o : ObjectProgress) : List Progress :=
  .started o.key o.size :: o.percents.map (.percent o.key)

/-- What is told of an object that has been read to its end. -/
def whole (o : ObjectProgress) : List Progress := o.begun ++ [.finished o.key o.size]

theorem begun_read (o : ObjectProgress) (reached : Nat) (percent : Option UInt8) :
    (o.read reached percent).begun = o.begun ++ percent.toList.map (.percent o.key) := by
  simp [begun, read]

/-- Every read has got further, the last one to `offset`, and the percentages told are those
reached by a read, in ascending order and without 0. -/
structure Tracks (o : ObjectProgress) (offset : Nat) : Prop where
  further : (0 :: o.reached).Pairwise (· < ·)
  arrived : (0 :: o.reached).getLast? = some offset
  ascending : o.percents.Pairwise (· < ·)
  mem_iff : ∀ p, p ∈ o.percents ↔ 0 < p ∧ ∃ r ∈ o.reached, p.toNat = 100 * r / o.size

variable {o : ObjectProgress} {offset reached : Nat}

theorem tracks_started (key : String) (size : Nat) : (started key size).Tracks 0 where
  further := List.pairwise_singleton _ _
  arrived := rfl
  ascending := .nil
  mem_iff := by simp [started]

theorem Tracks.le_offset (h : o.Tracks offset) {r : Nat} (hr : r ∈ 0 :: o.reached) :
    r ≤ offset := by
  obtain ⟨before, hbefore⟩ := List.getLast?_eq_some_iff.mp h.arrived
  have hfurther := h.further
  rw [hbefore, List.pairwise_append] at hfurther
  rw [hbefore, List.mem_append, List.mem_singleton] at hr
  rcases hr with hr | rfl
  · exact Nat.le_of_lt (hfurther.2.2 r hr offset (List.mem_singleton_self _))
  · exact Nat.le_refl _

theorem Tracks.offset_mem (h : o.Tracks offset) (hpos : 0 < offset) : offset ∈ o.reached := by
  have hmem := List.mem_of_getLast? h.arrived
  rcases List.mem_cons.mp hmem with rfl | hmem
  · omega
  · exact hmem

theorem Tracks.toNat_le (h : o.Tracks offset) {p : UInt8} (hp : p ∈ o.percents) :
    p.toNat ≤ 100 * offset / o.size := by
  obtain ⟨-, r, hr, hpercent⟩ := (h.mem_iff p).mp hp
  rw [hpercent]
  exact Nat.div_le_div_right (Nat.mul_le_mul_left _ (h.le_offset (List.mem_cons_of_mem _ hr)))

/-- A further read, after which the percentage is told if it has grown. -/
theorem Tracks.read (h : o.Tracks offset) (hmore : offset < reached)
    (hle : reached ≤ o.size) :
    (o.read reached (percentGrown o.size offset reached)).Tracks reached where
  further := by
    rw [ObjectProgress.read, ← List.cons_append, List.pairwise_append]
    refine ⟨h.further, List.pairwise_singleton _ _, ?_⟩
    intro r hr last hlast
    rw [List.mem_singleton.mp hlast]
    exact Nat.lt_of_le_of_lt (h.le_offset hr) hmore
  arrived := by rw [ObjectProgress.read, ← List.cons_append, List.getLast?_concat]
  ascending := by
    rw [ObjectProgress.read, List.pairwise_append]
    refine ⟨h.ascending, ?_, ?_⟩
    · cases percentGrown o.size offset reached with
      | none => exact .nil
      | some p => exact List.pairwise_singleton _ _
    · intro p hp last hlast
      obtain ⟨hgrown, hpercent⟩ := (mem_percentGrown_iff hle).mp hlast
      rw [UInt8.lt_iff_toNat_lt, hpercent]
      exact Nat.lt_of_le_of_lt (h.toNat_le hp) hgrown
  mem_iff := by
    intro p
    have hbefore := h.mem_iff p
    have hmono : 100 * offset / o.size ≤ 100 * reached / o.size :=
      Nat.div_le_div_right (Nat.mul_le_mul_left _ (Nat.le_of_lt hmore))
    simp only [ObjectProgress.read, List.mem_append, mem_percentGrown_iff hle]
    constructor
    · rintro (hp | ⟨hgrown, hpercent⟩)
      · obtain ⟨hpos, r, hr, hpercent⟩ := hbefore.mp hp
        exact ⟨hpos, r, .inl hr, hpercent⟩
      · refine ⟨?_, reached, .inr (List.mem_singleton_self _), hpercent⟩
        rw [UInt8.lt_iff_toNat_lt, hpercent]
        exact Nat.lt_of_le_of_lt (Nat.zero_le _) hgrown
    · rintro ⟨hpos, r, hr | hr, hpercent⟩
      · exact .inl (hbefore.mpr ⟨hpos, r, hr, hpercent⟩)
      · rw [List.mem_singleton.mp hr] at hpercent
        by_cases hgrown : 100 * offset / o.size < 100 * reached / o.size
        · exact .inr ⟨hgrown, hpercent⟩
        · -- an unchanged percentage has been told already, unless it is still 0
          have hsame : p.toNat = 100 * offset / o.size := by omega
          have hoffset : 0 < offset := by
            rcases Nat.eq_zero_or_pos offset with rfl | hoffset
            · rw [UInt8.lt_iff_toNat_lt, hsame] at hpos
              simp at hpos
            · exact hoffset
          exact .inl (hbefore.mpr ⟨hpos, offset, h.offset_mem hoffset, hsame⟩)

/-- The object has been read to its end: its percentages lie between 1 and 100, and the last
one is 100, unless the object is empty. -/
structure Complete (o : ObjectProgress) : Prop where
  tracks : o.Tracks o.size
  between : ∀ p ∈ o.percents, 1 ≤ p ∧ p ≤ 100
  last : 0 < o.size → o.percents.getLast? = some 100
  nil : o.size = 0 → o.percents = []

theorem Tracks.between (h : o.Tracks o.size) {p : UInt8} (hp : p ∈ o.percents) :
    1 ≤ p ∧ p ≤ 100 := by
  obtain ⟨hpos, -⟩ := (h.mem_iff p).mp hp
  have hle := Nat.le_trans (h.toNat_le hp) (percent_le_hundred (Nat.le_refl _))
  rw [UInt8.le_iff_toNat_le, UInt8.le_iff_toNat_le]
  rw [UInt8.lt_iff_toNat_lt] at hpos
  exact ⟨hpos, hle⟩

theorem Tracks.last_eq_hundred (h : o.Tracks o.size) (hsize : 0 < o.size) :
    o.percents.getLast? = some 100 := by
  have hhundred : 100 ∈ o.percents := by
    refine (h.mem_iff 100).mpr ⟨by decide, o.size, h.offset_mem hsize, ?_⟩
    exact (Nat.mul_div_cancel _ hsize).symm
  rcases List.eq_nil_or_concat o.percents with hnil | ⟨before, last, hsplit⟩
  · rw [hnil] at hhundred
    exact absurd hhundred List.not_mem_nil
  · rw [List.concat_eq_append] at hsplit
    rw [hsplit, List.mem_append, List.mem_singleton] at hhundred
    rw [hsplit, List.getLast?_concat]
    rcases hhundred with hearlier | rfl
    · have hascending := h.ascending
      rw [hsplit, List.pairwise_append] at hascending
      have hless := hascending.2.2 100 hearlier last (List.mem_singleton_self _)
      have hle := (h.between (hsplit ▸ List.mem_append_right _ (List.mem_singleton_self _))).2
      exact absurd hless (UInt8.not_lt.mpr hle)
    · rfl

theorem Tracks.complete (h : o.Tracks o.size) : o.Complete where
  tracks := h
  between _ := h.between
  last := h.last_eq_hundred
  nil := by
    intro hzero
    refine List.eq_nil_iff_forall_not_mem.mpr fun p hp => ?_
    obtain ⟨hpos, r, -, hpercent⟩ := (h.mem_iff p).mp hp
    rw [hzero, Nat.div_zero] at hpercent
    rw [UInt8.lt_iff_toNat_lt, hpercent] at hpos
    exact Nat.lt_irrefl _ hpos

/-- An object whose reading has stopped can be read to its end. -/
theorem Tracks.completion (h : o.Tracks offset) (hle : offset ≤ o.size) :
    ∃ completed : ObjectProgress, completed.key = o.key ∧ completed.size = o.size ∧
      completed.Complete ∧ o.begun <+: completed.whole := by
  rcases Nat.eq_or_lt_of_le hle with rfl | hless
  · exact ⟨o, rfl, rfl, h.complete, List.prefix_append _ _⟩
  · refine ⟨o.read o.size (percentGrown o.size offset o.size), rfl, rfl,
      (h.read hless (Nat.le_refl _)).complete, ?_⟩
    rw [whole, begun_read, List.append_assoc]
    exact List.prefix_append _ _

end ObjectProgress
end ZoneDemand
