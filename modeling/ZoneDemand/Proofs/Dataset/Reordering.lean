import ZoneDemand.Proofs.Dataset.Moments
import ZoneDemand.Proofs.Resample.Answers

/-!
# The order of the rows does not matter

Sorting leaves open only the order of pickups with the same time and geohash.  The zones and
their range are read off the keys, which come out the same, and counting a zone's pickups is
the same in every order, even where a count is cut off midway.
-/

namespace ZoneDemand.Fine

/-! ## Reading zones off the keys -/

section Keys

variable {pickups others : List Pickup}

theorem map_key_sorted_of_perm (hperm : pickups.Perm others) :
    (sorted pickups).map Pickup.key = (sorted others).map Pickup.key := by
  have hkeys : ∀ list : List Pickup, ((sorted list).map Pickup.key).Pairwise (· ≤ ·) := by
    intro list
    rw [List.pairwise_map]
    exact pairwise_sorted list
  have hsorted : (sorted pickups).Perm (sorted others) :=
    (sorted_perm pickups).trans (hperm.trans (sorted_perm others).symm)
  refine List.Perm.eq_of_pairwise ?_ (hkeys pickups) (hkeys others) (hsorted.map _)
  exact fun k l _ _ => le_antisymm

variable (hkeys : pickups.map Pickup.key = others.map Pickup.key)
include hkeys

theorem map_time_of_map_key : pickups.map Pickup.time = others.map Pickup.time := by
  have htimes := congrArg (List.map fun k => (ofLex k).1) hkeys
  rwa [List.map_map, List.map_map] at htimes

theorem map_geohash_of_map_key : pickups.map Pickup.geohash = others.map Pickup.geohash := by
  have hnames := congrArg (List.map fun k => (ofLex k).2) hkeys
  rwa [List.map_map, List.map_map] at hnames

theorem ZoneSet.ofPickups_of_map_key : ofPickups pickups = ofPickups others := by
  have hnames := map_geohash_of_map_key hkeys
  have htimes := map_time_of_map_key hkeys
  cases pickups with
  | nil =>
      rw [List.map_nil, eq_comm, List.map_eq_nil_iff] at hkeys
      rw [hkeys]
  | cons p pickups =>
      cases others with
      | nil => contradiction
      | cons q others =>
          obtain ⟨hfirst, hrest⟩ := List.cons.inj htimes
          rw [ofPickups, ofPickups, hnames, hfirst, hrest]

end Keys

/-! ## The dataset -/

/-- The same pickups in another order come to the same dataset, or fail in the same way.  At
starts of seconds this is what they come to as pickups at instants. -/
theorem Dataset.ofPickups_of_perm {pickups others : List Pickup} (hperm : pickups.Perm others)
    (step : Duration) (policy : ResamplePolicy) (horizon : Nat) (categories : Bool) :
    ofPickups pickups step policy horizon categories =
        ofPickups others step policy horizon categories ∧
      ∀ (pickups : List ZoneDemand.Pickup) (step : Step),
        ofPickups (pickups.map ZoneDemand.Pickup.fine) step.fine policy horizon categories =
          (ZoneDemand.Dataset.ofPickups pickups step policy horizon categories).map
            ZoneDemand.Dataset.fine := by
  have hsorted : (sorted pickups).Perm (sorted others) :=
    (sorted_perm pickups).trans (hperm.trans (sorted_perm others).symm)
  have hzones := ZoneSet.ofPickups_of_map_key (map_key_sorted_of_perm hperm)
  have hresample := fun zones => resample_of_perm hsorted zones step policy
  refine ⟨?_, fun pickups step => dataset_fine pickups step policy horizon categories⟩
  unfold ofPickups
  simp only [hzones, hresample]

/-- Pickups at a leap second, two of which only differ in what is counted and in the location;
together they exceed the largest count.  The last one is ten minutes and a half second later. -/
def leapPickups : List Pickup :=
  [⟨leapSecond.threeTenths, "a", 1, "x"⟩,
    ⟨leapSecond.threeTenths, "b", 18446744073709551615, "x"⟩,
    ⟨leapSecond.threeTenths, "b", 5, "y"⟩, ⟨nextTenPast.eightTenths, "b", 2, "x"⟩]

theorem sorted_leapPickups : sorted leapPickups = leapPickups :=
  List.mergeSort_of_pairwise (by decide +kernel)

theorem leapPickups_reversed :
    leapPickups.reverse.Perm leapPickups ∧
      (Dataset.ofPickups leapPickups.reverse tenMinutes.fine .exact 1 true).map
        (fun dataset => (dataset.stats, dataset.train)) = .ok (⟨2, 2, 4, 0⟩, [
      "\x7b\"start\":\"2021-12-13 23:59:60\",\"target\":[1],\"cat\":[0]\x7d",
      "\x7b\"start\":\"2021-12-13 23:59:60\",\"target\":[18446744073709551615],\"cat\":[1]\x7d"
    ]) := by
  have hperm : leapPickups.reverse.Perm leapPickups := List.reverse_perm leapPickups
  obtain ⟨hsame, -⟩ := Dataset.ofPickups_of_perm hperm tenMinutes.fine .exact 1 true
  refine ⟨hperm, ?_⟩
  rw [hsame, Dataset.ofPickups, sorted_leapPickups]
  decide +kernel

end ZoneDemand.Fine
