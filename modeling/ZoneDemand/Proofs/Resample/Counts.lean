import Mathlib.Algebra.Ring.Nat
import Mathlib.Data.List.Forall2
import ZoneDemand.Resample

/-!
# The counts of a zone

Adding up to the largest count at every pickup is the same as adding everything up and
cutting off once, so the count of an interval is the sum over its pickups, at most the
largest count.  Which pickup has which interval does not matter for that, so it is shown of
any members of a list that have intervals and counts.
-/

namespace ZoneDemand

theorem toNat_addCapped (a b : UInt64) :
    (addCapped a b).toNat = min (a.toNat + b.toNat) maxCount := by
  unfold addCapped maxCount
  rw [UInt64.toNat_ofNat']
  omega

/-! ## Members with intervals and counts -/

section Members

variable {α : Type} (slot : α → Option Nat) (count : α → UInt64)

def totalAt (k : Nat) (members : List α) : Nat :=
  ((members.filter fun a => slot a = some k).map fun a => (count a).toNat).sum

theorem totalAt_append (k : Nat) (before after : List α) :
    totalAt slot count k (before ++ after) =
      totalAt slot count k before + totalAt slot count k after := by
  simp [totalAt]

theorem totalAt_of_perm {members others : List α} (hperm : members.Perm others) (k : Nat) :
    totalAt slot count k members = totalAt slot count k others :=
  ((hperm.filter _).map _).sum_nat

theorem totalAt_filter_le (p : α → Bool) (k : Nat) (members : List α) :
    totalAt slot count k (members.filter p) ≤ totalAt slot count k members := by
  rw [← totalAt_of_perm slot count (List.filter_append_perm p members), totalAt_append]
  exact Nat.le_add_right _ _

namespace Tally

/-- Counts a member in its interval, or drops it. -/
def enter (tally : Tally) (a : α) : Tally :=
  match slot a with
  | some index => { tally with counts := tally.counts.modify index (addCapped · (count a)) }
  | none => { tally with dropped := tally.dropped + 1 }

/-- The tally holds the counts of the members before, and has dropped those of no interval. -/
structure Holds (size : Nat) (tally : Tally) (before : List α) : Prop where
  length : tally.counts.length = size
  count : ∀ k c, tally.counts[k]? = some c → c.toNat = min maxCount (totalAt slot count k before)
  dropped : tally.dropped = before.countP fun a => !(slot a).isSome

variable {slot count} {size : Nat} {tally other : Tally} {before members others : List α}

theorem holds_empty (size : Nat) : Holds slot count size (empty size) [] := by
  refine ⟨by simp [empty], fun k c hc => ?_, rfl⟩
  have hzero : c = 0 := List.eq_of_mem_replicate (List.mem_of_getElem? hc)
  simp [hzero, totalAt]

theorem Holds.enter (h : Holds slot count size tally before) (a : α) :
    Holds slot count size (tally.enter slot count a) (before ++ [a]) := by
  have hdropped := h.dropped
  unfold Tally.enter
  cases hslot : slot a with
  | none =>
      refine ⟨h.length, fun k c hc => ?_, ?_⟩
      · rw [h.count k c hc, totalAt_append]
        simp [totalAt, hslot]
      · simp [hdropped, hslot]
  | some index =>
      refine ⟨by simp [h.length], fun k c hc => ?_, ?_⟩
      · rw [List.getElem?_modify, Option.map_eq_map, Option.map_eq_some_iff] at hc
        obtain ⟨old, hold, hc⟩ := hc
        have hcount := h.count k old hold
        rw [totalAt_append]
        by_cases hsame : index = k
        · subst hsame
          rw [if_pos rfl] at hc
          have hadded : totalAt slot count index [a] = (count a).toNat := by simp [totalAt, hslot]
          rw [← hc, toNat_addCapped, hcount, hadded]
          omega
        · rw [if_neg hsame] at hc
          rw [← hc, hcount]
          simp [totalAt, hslot, hsame]
      · simp [hdropped, hslot]

theorem Holds.enterAll (h : Holds slot count size tally before) (members : List α) :
    Holds slot count size (members.foldl (Tally.enter slot count) tally) (before ++ members) := by
  induction members generalizing tally before with
  | nil => simpa using h
  | cons a members ih =>
      have hrest := ih (h.enter a)
      rw [List.append_assoc, List.singleton_append] at hrest
      exact hrest

theorem holds_foldl (size : Nat) (members : List α) :
    Holds slot count size (members.foldl (Tally.enter slot count) (empty size)) members :=
  (holds_empty size).enterAll members

/-- The order in which members have been counted leaves no trace. -/
theorem Holds.of_perm (h : Holds slot count size tally members) (hperm : members.Perm others) :
    Holds slot count size tally others := by
  refine ⟨h.length, fun k c hc => ?_, ?_⟩
  · rw [h.count k c hc, totalAt_of_perm slot count hperm]
  · rw [h.dropped, hperm.countP_eq]

section Compared

variable {slot' : α → Option Nat} (h : Holds slot count size tally members)
  (hother : Holds slot' count size other others)
include h hother

theorem Holds.counts_le
    (hle : ∀ k, totalAt slot count k members ≤ totalAt slot' count k others) :
    List.Forall₂ (· ≤ ·) tally.counts other.counts := by
  rw [List.forall₂_iff_get]
  refine ⟨h.length.trans hother.length.symm, fun k hk hotherK => ?_⟩
  have hcount := h.count k _ (List.getElem?_eq_getElem hk)
  have hotherCount := hother.count k _ (List.getElem?_eq_getElem hotherK)
  have htotal := hle k
  rw [List.get_eq_getElem, List.get_eq_getElem, UInt64.le_iff_toNat_le, hcount, hotherCount]
  omega

theorem Holds.counts_eq
    (heq : ∀ k, totalAt slot count k members = totalAt slot' count k others) :
    tally.counts = other.counts := by
  apply List.ext_getElem (h.length.trans hother.length.symm)
  intro k hk hotherK
  apply UInt64.toNat_inj.mp
  rw [h.count k _ (List.getElem?_eq_getElem hk), heq k,
    hother.count k _ (List.getElem?_eq_getElem hotherK)]

end Compared

theorem Holds.unique (h : Holds slot count size tally members)
    (hother : Holds slot count size other members) : tally = other := by
  have hcounts := h.counts_eq hother fun _ => rfl
  have hdropped := h.dropped.trans hother.dropped.symm
  cases tally
  cases other
  exact congrArg₂ Tally.mk hcounts hdropped

/-- Cutting off within two lists and once more when their counts are added is cutting off
once. -/
theorem Holds.append (h : Holds slot count size tally members)
    (hother : Holds slot count size other others) :
    Holds slot count size ⟨List.zipWith addCapped tally.counts other.counts,
      tally.dropped + other.dropped⟩ (members ++ others) := by
  refine ⟨by simp [h.length, hother.length], fun k c hc => ?_, ?_⟩
  · rw [List.getElem?_zipWith_eq_some] at hc
    obtain ⟨a, b, ha, hb, rfl⟩ := hc
    rw [toNat_addCapped, h.count k a ha, hother.count k b hb, totalAt_append]
    omega
  · rw [h.dropped, hother.dropped, List.countP_append]

end Tally

/-! ## Members of zones -/

variable (zoneOf : α → String) (p : α → Bool)

theorem countP_zone_cons {zone : String} {zones : List String} (hzone : zone ∉ zones)
    (members : List α) :
    (members.countP fun a => decide (zoneOf a ∈ zone :: zones) && p a) =
      (members.filter fun a => zoneOf a = zone).countP p +
        members.countP fun a => decide (zoneOf a ∈ zones) && p a := by
  rw [List.countP_filter]
  induction members with
  | nil => rfl
  | cons a members ih =>
      simp only [List.countP_cons, ih]
      by_cases hsame : zoneOf a = zone
      · simp only [hsame, hzone, List.mem_cons_self, decide_true, decide_false, Bool.and_true,
          Bool.true_and, Bool.false_and, Bool.false_eq_true, if_false]
        omega
      · simp only [hsame, List.mem_cons, false_or, decide_false, Bool.and_false,
          Bool.false_eq_true, if_false]
        omega

/-- Every member of one of the zones is a member of exactly one of them. -/
theorem sum_countP_zones {zones : List String} (hnodup : zones.Nodup) (members : List α) :
    (zones.map fun zone => (members.filter fun a => zoneOf a = zone).countP p).sum =
      members.countP fun a => decide (zoneOf a ∈ zones) && p a := by
  induction zones with
  | nil => simp
  | cons zone zones ih =>
      rw [List.nodup_cons] at hnodup
      rw [List.map_cons, List.sum_cons, ih hnodup.2, countP_zone_cons zoneOf p hnodup.1]

end Members

/-! ## Pickups -/

def total (pickups : List Pickup) : Nat := (pickups.map fun p => p.count.toNat).sum

theorem total_of_perm {pickups other : List Pickup} (hperm : pickups.Perm other) :
    total pickups = total other :=
  (hperm.map _).sum_nat

theorem total_append (before after : List Pickup) :
    total (before ++ after) = total before + total after := by
  simp [total]

theorem total_filter_le (p : Pickup → Bool) (pickups : List Pickup) :
    total (pickups.filter p) ≤ total pickups := by
  rw [← total_of_perm (List.filter_append_perm p pickups), total_append]
  exact Nat.le_add_right _ _

def Grid.slotted (grid : Grid) (policy : ResamplePolicy) (k : Nat) (pickups : List Pickup) :
    List Pickup :=
  pickups.filter fun p => grid.slot? policy p.time = some k

theorem Tally.holds_ofPickups (grid : Grid) (policy : ResamplePolicy) (pickups : List Pickup) :
    Holds (fun p : Pickup => grid.slot? policy p.time) Pickup.count grid.size
      (ofPickups grid policy pickups) pickups :=
  holds_foldl grid.size pickups

theorem Tally.Holds.toNat_eq {grid : Grid} {policy : ResamplePolicy} {tally : Tally}
    {pickups : List Pickup} {size k : Nat} {c : UInt64}
    (h : Holds (fun p : Pickup => grid.slot? policy p.time) Pickup.count size tally pickups)
    (hc : tally.counts[k]? = some c) :
    c.toNat = min maxCount (total (grid.slotted policy k pickups)) :=
  h.count k c hc

end ZoneDemand
