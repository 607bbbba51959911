import Mathlib.Data.List.Induction
import ZoneDemand.Proofs.Staging.Percent

/-!
# A tracker under any calls

A tracker can be called with any numbers of octets, any number of times, and with more octets
than its total.  What it has counted stops at the largest word, and no more than the total enters
the percentage, so that only the product with 100 can leave 64 bits.  A tracker tells what
unbounded numbers would tell exactly if 100 times its total fits a word.
-/

namespace ZoneDemand
namespace PercentTracker

/-- The tracker after calls with these numbers of octets. -/
def after (tracker : PercentTracker) (calls : List UInt64) : PercentTracker :=
  calls.foldl (fun tracker octets => (tracker.advance octets).1) tracker

/-- The percentages that calls tell, one after the other. -/
def told (tracker : PercentTracker) : List UInt64 → List UInt8
  | [] => []
  | octets :: rest => (tracker.advance octets).2.toList ++ (tracker.advance octets).1.told rest

/-- The octets of all calls together, at most the total. -/
def reached (total : UInt64) (calls : List UInt64) : Nat :=
  min (calls.map UInt64.toNat).sum total.toNat

/-- After any calls, a further one tells the percentage that has been reached in unbounded
numbers if it is larger than 0 and all that have been told, and nothing otherwise.  The
percentages told ascend up to 100, which is told by the call that reaches the total. -/
structure Exact (total : UInt64) : Prop where
  tells_iff : ∀ calls octets p, (((ofTotal total).after calls).advance octets).2 = some p ↔
    0 < total ∧ p.toNat = 100 * reached total (calls ++ [octets]) / total.toNat ∧
      ∀ q ∈ 0 :: (ofTotal total).told calls, q < p
  ascending : ∀ calls, ((ofTotal total).told calls).Pairwise (· < ·)
  le_hundred : ∀ calls, ∀ p ∈ (ofTotal total).told calls, p ≤ 100
  arrives : ∀ calls octets, reached total calls < total.toNat →
    reached total (calls ++ [octets]) = total.toNat →
      (((ofTotal total).after calls).advance octets).2 = some 100

/-! ## Calls one after another -/

theorem after_concat (tracker : PercentTracker) (calls : List UInt64) (octets : UInt64) :
    tracker.after (calls ++ [octets]) = ((tracker.after calls).advance octets).1 := by
  simp [after]

theorem reached_le (total : UInt64) (calls : List UInt64) : reached total calls ≤ total.toNat :=
  Nat.min_le_right _ _

theorem reached_concat (total : UInt64) (calls : List UInt64) (octets : UInt64) :
    reached total (calls ++ [octets]) = min (reached total calls + octets.toNat) total.toNat := by
  unfold reached
  simp only [List.map_append, List.map_cons, List.map_nil, List.sum_append, List.sum_cons,
    List.sum_nil]
  omega

/-- The tracker has counted the calls as far as its total goes, and its percentage does not
exceed theirs. -/
structure Counted (tracker : PercentTracker) (total : UInt64) (calls : List UInt64) : Prop where
  total_eq : tracker.total = total
  consumed : min tracker.consumed.toNat total.toNat = reached total calls
  percent_le : tracker.percent.toNat ≤ 100 * reached total calls / total.toNat

namespace Counted

variable {tracker : PercentTracker} {total : UInt64} {calls : List UInt64}
  (h : tracker.Counted total calls) (octets : UInt64)
include h

theorem consume :
    min (tracker.consume octets).toNat total.toNat = reached total (calls ++ [octets]) := by
  have hconsumed := h.consumed
  have hword := total.toNat_lt
  rw [reached_concat, toNat_consume, maxCount]
  omega

theorem toNat_percentOf : (tracker.percentOf octets).toNat =
    100 * reached total (calls ++ [octets]) % 2 ^ 64 / total.toNat := by
  rw [PercentTracker.toNat_percentOf, h.total_eq, h.consume]

theorem advance : (tracker.advance octets).1.Counted total (calls ++ [octets]) := by
  have hle := reached_le total calls
  have hgrows : 100 * reached total calls / total.toNat ≤
      100 * reached total (calls ++ [octets]) / total.toNat := by
    refine Nat.div_le_div_right (Nat.mul_le_mul_left _ ?_)
    rw [reached_concat]
    omega
  have hkept : tracker.percent.toNat ≤ 100 * reached total (calls ++ [octets]) / total.toNat :=
    Nat.le_trans h.percent_le hgrows
  have hnext := h.consume octets
  rcases tracker.advance_cases octets with ⟨hzero, h'⟩ | ⟨-, -, h'⟩ | ⟨-, -, h'⟩
  · -- The call is not counted then, but no number of octets exceeds a total of 0.
    rw [h.total_eq] at hzero
    rw [h']
    exact ⟨h.total_eq, by simp [reached, hzero], hkept⟩
  · rw [h']
    refine ⟨h.total_eq, hnext, ?_⟩
    rw [h.toNat_percentOf]
    exact Nat.div_le_div_right (Nat.mod_le _ _)
  · rw [h']
    exact ⟨h.total_eq, hnext, hkept⟩

end Counted

theorem counted_after (total : UInt64) (calls : List UInt64) :
    ((ofTotal total).after calls).Counted total calls := by
  induction calls using List.reverseRecOn with
  | nil => exact ⟨rfl, by simp [after, ofTotal, reached], Nat.zero_le _⟩
  | append_singleton calls octets ih =>
      rw [after_concat]
      exact ih.advance octets

/-- What calls tell ascends from the percentage of the tracker to that of the tracker after
them. -/
structure Ascends (tracker : PercentTracker) (calls : List UInt64) : Prop where
  ascending : (tracker.percent :: tracker.told calls).Pairwise (· < ·)
  last_mem : (tracker.after calls).percent ∈ tracker.percent :: tracker.told calls
  le_last : ∀ q ∈ tracker.percent :: tracker.told calls, q ≤ (tracker.after calls).percent
  le_hundred : ∀ p ∈ tracker.told calls, p ≤ 100

theorem ascends (tracker : PercentTracker) (calls : List UInt64) : tracker.Ascends calls := by
  induction calls generalizing tracker with
  | nil => constructor <;> simp [after, told]
  | cons octets rest ih =>
      obtain ⟨hascending, hmem, hle, hhundred⟩ := ih (tracker.advance octets).1
      have hafter : tracker.after (octets :: rest) = (tracker.advance octets).1.after rest := rfl
      rcases tracker.percent_advance octets with ⟨hnone, hsame⟩ | ⟨p, hbound, hgrown, hsome, hp⟩
      · have htold : tracker.told (octets :: rest) = (tracker.advance octets).1.told rest := by
          rw [told, hnone]
          rfl
        rw [hsame] at hascending hmem hle
        constructor <;> rwa [htold]
      · have htold : tracker.told (octets :: rest) =
            p :: (tracker.advance octets).1.told rest := by
          rw [told, hsome]
          rfl
        rw [hp] at hascending hmem hle
        constructor
        all_goals rw [htold]
        · refine List.pairwise_cons.mpr ⟨fun q hq => ?_, hascending⟩
          rcases List.mem_cons.mp hq with rfl | hq
          · exact hgrown
          · exact UInt8.lt_trans hgrown (List.rel_of_pairwise_cons hascending hq)
        · exact List.mem_cons_of_mem _ hmem
        · intro q hq
          rcases List.mem_cons.mp hq with rfl | hq
          · exact UInt8.le_of_lt (UInt8.lt_of_lt_of_le hgrown (hle p List.mem_cons_self))
          · exact hle q hq
        · intro q hq
          rcases List.mem_cons.mp hq with rfl | hq
          · exact hbound
          · exact hhundred q hq

/-- What a call tells after any others, whatever the total: the percentage that has been reached,
but of a product that is a word. -/
theorem tells_iff (total : UInt64) (calls : List UInt64) (octets : UInt64) (p : UInt8) :
    (((ofTotal total).after calls).advance octets).2 = some p ↔
      0 < total ∧ p.toNat = 100 * reached total (calls ++ [octets]) % 2 ^ 64 / total.toNat ∧
        ∀ q ∈ 0 :: (ofTotal total).told calls, q < p := by
  have hcounted := counted_after total calls
  have hascends := ascends (ofTotal total) calls
  have hpos : 0 < total ↔ total ≠ 0 := by
    rw [UInt64.lt_iff_toNat_lt, ne_eq, ← UInt64.toNat_inj]
    exact Nat.pos_iff_ne_zero
  have hlarger : ((ofTotal total).after calls).percent < p ↔
      ∀ q ∈ 0 :: (ofTotal total).told calls, q < p := by
    constructor
    · exact fun hlast q hq => UInt8.lt_of_le_of_lt (hascends.le_last q hq) hlast
    · exact fun hall => hall _ hascends.last_mem
  rw [advance_eq_some_iff, hcounted.total_eq, hpos, hlarger, ← UInt8.toNat_inj,
    hcounted.toNat_percentOf, eq_comm (a := p.toNat)]

/-! ## When a tracker is exact -/

/-- As long as the total has not been reached, 100 has not been told. -/
theorem told_lt_hundred {total : UInt64} {calls : List UInt64}
    (hless : reached total calls < total.toNat) :
    ∀ q ∈ 0 :: (ofTotal total).told calls, q < 100 := by
  intro q hq
  have hlast := (ascends (ofTotal total) calls).le_last q hq
  have hle := (counted_after total calls).percent_le
  have hbelow : 100 * reached total calls / total.toNat < 100 :=
    Nat.div_lt_of_lt_mul (by rw [Nat.mul_comm total.toNat]; omega)
  rw [UInt8.le_iff_toNat_le] at hlast
  rw [UInt8.lt_iff_toNat_lt]
  change q.toNat < 100
  omega

theorem exact_of_fits {total : UInt64} (hfits : 100 * total.toNat < 2 ^ 64) : Exact total := by
  have htells : ∀ calls octets p, (((ofTotal total).after calls).advance octets).2 = some p ↔
      0 < total ∧ p.toNat = 100 * reached total (calls ++ [octets]) / total.toNat ∧
        ∀ q ∈ 0 :: (ofTotal total).told calls, q < p := by
    intro calls octets p
    have hle := reached_le total (calls ++ [octets])
    rw [tells_iff, Nat.mod_eq_of_lt (by omega)]
  refine ⟨htells, ?_, ?_, ?_⟩
  · exact fun calls => (ascends (ofTotal total) calls).ascending.of_cons
  · exact fun calls => (ascends (ofTotal total) calls).le_hundred
  · intro calls octets hless harrived
    have hpos : 0 < total.toNat := by omega
    refine (htells calls octets 100).mpr ⟨?_, ?_, told_lt_hundred hless⟩
    · rwa [UInt64.lt_iff_toNat_lt]
    · rw [harrived]
      exact (Nat.mul_div_cancel 100 hpos).symm

/-- A tracker is exact for every sequence of calls exactly if 100 times its total is a word.  For
any larger total, a single call with all of it does not tell 100. -/
theorem exact_iff (total : UInt64) : Exact total ↔ 100 * total.toNat < 2 ^ 64 := by
  refine ⟨fun hexact => ?_, exact_of_fits⟩
  by_contra hlarge
  have hpos : 0 < total.toNat := by omega
  have harrived : reached total ([] ++ [total]) = total.toNat := by simp [reached]
  have htold := hexact.arrives [] total (by simpa [reached] using hpos) harrived
  obtain ⟨-, hpercent, -⟩ := (tells_iff total [] total 100).mp htold
  rw [harrived] at hpercent
  have hless : 100 * total.toNat % 2 ^ 64 < 100 * total.toNat :=
    Nat.lt_of_lt_of_le (Nat.mod_lt _ (by decide)) (by omega)
  have hbelow : 100 * total.toNat % 2 ^ 64 / total.toNat < 100 :=
    Nat.div_lt_of_lt_mul (by rw [Nat.mul_comm total.toNat]; exact hless)
  change 100 = _ at hpercent
  omega

example : (ofTotal 200).told [1, 1, 1, 97, 100, 10] = [1, 50, 100] := by decide

/-- The least total of which 100 times is no word.  The call that reaches it tells nothing. -/
theorem least_large_total_untold :
    ((ofTotal 184467440737095517).advance 184467440737095517).2 = none ∧
      ¬Exact 184467440737095517 := by
  have huntold : ((ofTotal 184467440737095517).advance 184467440737095517).2 = none := by decide
  refine ⟨huntold, fun hexact => ?_⟩
  have htold := hexact.arrives [] 184467440737095517 (by decide) (by decide)
  exact absurd (htold.symm.trans huntold) (by decide)

end PercentTracker
end ZoneDemand
