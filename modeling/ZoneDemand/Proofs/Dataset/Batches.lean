import ZoneDemand.Proofs.Resample.Answers

/-!
# Counting in batches

Pickups may be counted all at once or batch by batch, in any order of the batches: the counts
of the batches add up, interval by interval and at most to the largest count, and so do the
numbers of counted and of dropped pickups.
-/

namespace ZoneDemand.Fine

/-- What two batches of a zone's pickups come to together. -/
def ZoneCount.merge (z w : ZoneCount) : ZoneCount where
  series := { z.series with counts := List.zipWith addCapped z.series.counts w.series.counts }
  used := z.used + w.used
  dropped := z.dropped + w.dropped

/-- Merges zone by zone the answers to two batches. -/
def Resampled.merge (r s : Resampled) : Resampled :=
  ⟨List.zipWith ZoneCount.merge r.zones s.zones, r.intervals⟩

/-! ## Two batches -/

theorem ZoneCount.Of.merge {first second : List Pickup} {grid : Grid} {policy : ResamplePolicy}
    {zone : String} {z w : ZoneCount} (hz : z.Of first grid policy zone)
    (hw : w.Of second grid policy zone) :
    (z.merge w).Of (first ++ second) grid policy zone := by
  have hzone : ofZone (first ++ second) zone = ofZone first zone ++ ofZone second zone :=
    List.filter_append ..
  refine ⟨hz.geohash, hz.start, hz.step, ?_, ?_⟩
  · rw [hzone]
    exact hz.counts.append hw.counts
  · rw [hzone, List.countP_append, ← hz.used, ← hw.used]
    rfl

section Two

variable (first second : List Pickup) (zones : ZoneSet) (step : Duration) (size : Nat)
  (policy : ResamplePolicy)

theorem counted_append :
    counted (first ++ second) zones step size policy =
      (counted first zones step size policy).merge (counted second zones step size policy) := by
  have hof := fun pickups => ZoneCount.of_ofPickups pickups ⟨zones.range, step, size⟩ policy
  unfold Resampled.merge counted
  rw [List.zipWith_map, List.zipWith_self]
  congr 1
  refine List.map_congr_left fun zone _ => ?_
  exact (hof (first ++ second) zone).unique ((hof first zone).merge (hof second zone))

end Two

/-! ## Any number of batches -/

/-- The whole is the merger of the parts, whose accounts add up to its own. -/
structure Resampled.Gathers (whole part : Resampled) (parts : List Resampled) : Prop where
  merged : whole = parts.foldl Resampled.merge part
  used : whole.stats.used = part.stats.used + (parts.map fun r => r.stats.used).sum
  dropped : whole.stats.dropped = part.stats.dropped + (parts.map fun r => r.stats.dropped).sum

section Batches

variable {zones : ZoneSet} (step : Duration) (size : Nat) (policy : ResamplePolicy)
  (batch : List Pickup) (batches : List (List Pickup))

theorem counted_batches :
    counted (batch ++ batches.flatten) zones step size policy =
      (batches.map fun b => counted b zones step size policy).foldl Resampled.merge
        (counted batch zones step size policy) := by
  induction batches generalizing batch with
  | nil => rw [List.flatten_nil, List.append_nil, List.map_nil, List.foldl_nil]
  | cons next batches ih =>
      rw [List.flatten_cons, ← List.append_assoc, ih, counted_append, List.map_cons,
        List.foldl_cons]

theorem gathers_counted (hnodup : zones.geohashes.Nodup) :
    (counted (batch ++ batches.flatten) zones step size policy).Gathers
      (counted batch zones step size policy)
      (batches.map fun b => counted b zones step size policy) where
  merged := counted_batches step size policy batch batches
  used := by
    rw [List.map_map]
    simp only [stats_counted _ _ _ _ _ hnodup, List.countP_append, List.countP_flatten,
      Function.comp_def]
  dropped := by
    rw [List.map_map]
    simp only [stats_counted _ _ _ _ _ hnodup, List.countP_append, List.countP_flatten,
      Function.comp_def]

end Batches

/-! ## The answers -/

section Answers

variable {zones : ZoneSet} {step : Duration} {size : Nat} (policy : ResamplePolicy)

theorem resample_sorted {pickups others : List Pickup} (hsome : pickups ≠ [])
    (hperm : pickups.Perm others) (hcount : zones.range.intervalCount step = .ok size) :
    resample (sorted pickups) zones step policy = .ok (counted others zones step size policy) := by
  have hsorted : (sorted pickups).Perm others := (sorted_perm pickups).trans hperm
  have hothers : others ≠ [] := by
    rintro rfl
    exact hsome hperm.eq_nil
  rw [resample_of_perm hsorted, resample_of_intervalCount hothers hcount]

/-- What is counted of sorted pickups at once is the merger of what is counted in any number of
batches of them, whatever their order. -/
def AddsUp (zones : ZoneSet) (step : Duration) (size : Nat) (policy : ResamplePolicy)
    (batch : List Pickup) (batches : List (List Pickup)) (pickups : List Pickup) : Prop :=
  ∃ part parts whole, resample (sorted batch) zones step policy = .ok part ∧
    List.Forall₂ (fun b r => resample (sorted b) zones step policy = .ok r) batches parts ∧
    resample (sorted pickups) zones step policy = .ok whole ∧ whole.Gathers part parts ∧
    ∀ r ∈ whole :: part :: parts, r.Covers zones step size

theorem addsUp (hnodup : zones.geohashes.Nodup)
    (hcount : zones.range.intervalCount step = .ok size) {batch : List Pickup}
    {batches : List (List Pickup)} {pickups : List Pickup} (hsome : ∀ b ∈ batch :: batches, b ≠ [])
    (hperm : pickups.Perm (batch :: batches).flatten) :
    AddsUp zones step size policy batch batches pickups := by
  obtain ⟨hbatch, hbatches⟩ := List.forall_mem_cons.mp hsome
  have hpickups : pickups ≠ [] := by
    rintro rfl
    rw [List.nil_perm, List.flatten_cons, List.append_eq_nil_iff] at hperm
    exact hbatch hperm.1
  refine ⟨_, _, _, resample_sorted policy hbatch (.refl batch) hcount, ?_,
    resample_sorted policy hpickups hperm hcount,
    gathers_counted step size policy batch batches hnodup, ?_⟩
  · rw [List.forall₂_map_right_iff, List.forall₂_same]
    exact fun b hb => resample_sorted policy (hbatches b hb) (.refl b) hcount
  · simp only [List.forall_mem_cons, List.forall_mem_map, covers_counted, implies_true, and_self]

end Answers

/-- What is counted at once is the merger of what is counted in two batches, and of what is
counted in any number of them, whatever their order.  At starts of seconds, what is sorted and
counted is what is at instants. -/
theorem resample_in_batches {source : List Pickup} {zones : ZoneSet}
    (hzones : ZoneSet.ofPickups source = .ok zones) {step : Duration} {size : Nat}
    (hcount : zones.range.intervalCount step = .ok size) (policy : ResamplePolicy) :
    (∀ pickups others : List Pickup, pickups ≠ [] → others ≠ [] → ∃ first second,
      resample (sorted pickups) zones step policy = .ok first ∧
      resample (sorted others) zones step policy = .ok second ∧
      resample (sorted (pickups ++ others)) zones step policy = .ok (first.merge second) ∧
      first.Covers zones step size ∧ second.Covers zones step size ∧
      (first.merge second).Covers zones step size ∧
      (first.merge second).stats.used = first.stats.used + second.stats.used ∧
      (first.merge second).stats.dropped = first.stats.dropped + second.stats.dropped) ∧
    (∀ (batch : List Pickup) (batches : List (List Pickup)) (pickups : List Pickup),
      (∀ b ∈ batch :: batches, b ≠ []) → pickups.Perm (batch :: batches).flatten →
      AddsUp zones step size policy batch batches pickups) ∧
    (∀ pickups : List ZoneDemand.Pickup, sorted (pickups.map ZoneDemand.Pickup.fine) =
      (PickupTable.ofList pickups).rows.map ZoneDemand.Pickup.fine) ∧
    ∀ table, AgreesAtSeconds table := by
  have hnodup := ZoneSet.nodup_ofPickups hzones
  refine ⟨?_, fun batch batches pickups hsome hperm => addsUp policy hnodup hcount hsome hperm,
    sorted_fine, agreesAtSeconds⟩
  intro pickups others hpickups hothers
  have hsome : ∀ b ∈ [pickups, others], b ≠ [] := by simp [hpickups, hothers]
  have hperm : (pickups ++ others).Perm [pickups, others].flatten := by simp
  obtain ⟨first, parts, whole, hfirst, hparts, hwhole, hgathers, hcovers⟩ :=
    addsUp policy hnodup hcount hsome hperm
  obtain _ | ⟨hsecond, _ | _⟩ := hparts
  obtain rfl := hgathers.merged
  simp only [List.forall_mem_cons] at hcovers
  obtain ⟨hwholeCovers, hfirstCovers, hsecondCovers, -⟩ := hcovers
  exact ⟨first, _, hfirst, hsecond, hwhole, hfirstCovers, hsecondCovers, hwholeCovers,
    hgathers.used, hgathers.dropped⟩

/-- The second pickup lies within a leap second. -/
def firstBatch : List Pickup :=
  [⟨twentyPast.threeTenths, "c", 18446744073709551615, "x"⟩, ⟨leapTen.threeTenths, "b", 2, "x"⟩]

/-- The first pickup is too early for the exact policy, the second meets one of the other batch
and exceeds the largest count with it. -/
def secondBatch : List Pickup :=
  [⟨tenPast.fine, "b", 3, "y"⟩, ⟨twentyPast.threeTenths, "c", 4, "y"⟩,
    ⟨twentyPast.fine, "a", 5, "y"⟩]

theorem secondBatch_merges_firstBatch :
    ZoneSet.ofPickups nightPickups = .ok nightZones ∧
      nightZones.range.intervalCount tenMinutes.fine = .ok 3 ∧ ∃ first second,
        resample (sorted secondBatch) nightZones tenMinutes.fine .exact = .ok first ∧
        resample (sorted firstBatch) nightZones tenMinutes.fine .exact = .ok second ∧
        (first.merge second).series.map Series.counts =
          [[0, 2, 0], [0, 0, 18446744073709551615]] ∧
        first.stats.used + second.stats.used = 3 ∧
        first.stats.dropped + second.stats.dropped = 1 := by
  have hzones : ZoneSet.ofPickups nightPickups = .ok nightZones := by rfl
  have hcount : nightZones.range.intervalCount tenMinutes.fine = .ok 3 := by rfl
  obtain ⟨htwo, -⟩ := resample_in_batches hzones hcount .exact
  obtain ⟨first, second, hfirst, hsecond, hwhole, -, -, -, hused, hdropped⟩ :=
    htwo secondBatch firstBatch (by simp [secondBatch]) (by simp [firstBatch])
  have hanswer : (resample (sorted (secondBatch ++ firstBatch)) nightZones tenMinutes.fine
      .exact).map (fun r => (r.series.map Series.counts, r.stats)) =
      .ok ([[0, 2, 0], [0, 0, 18446744073709551615]], ⟨2, 3, 3, 1⟩) := by
    rw [resample_of_perm (sorted_perm _)]
    decide +kernel
  rw [hwhole, map_ok, Except.ok.injEq, Prod.mk.injEq] at hanswer
  obtain ⟨hcounts, hstats⟩ := hanswer
  refine ⟨hzones, hcount, first, second, hfirst, hsecond, hcounts, ?_, ?_⟩
  · rw [← hused, hstats]
  · rw [← hdropped, hstats]

end ZoneDemand.Fine
