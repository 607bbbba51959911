import ZoneDemand.Proofs.Zones.Order

/-!
# Sorted pickups

The order of pickups looks at their keys only, the time and the geohash.  Sorting keeps the
pickups of one key in the order in which they came, and a sorted list is determined by the
pickups of each of its keys.
-/

namespace ZoneDemand

def Pickup.key (p : Pickup) : Instant × String := (p.time, p.geohash)

def KeyLE (k l : Instant × String) : Prop := k.1 < l.1 ∨ k.1 = l.1 ∧ k.2 ≤ l.2

theorem KeyLE.antisymm {k l : Instant × String} (hkl : KeyLE k l) (hlk : KeyLE l k) : k = l := by
  have hnot : ∀ {t : Instant}, ¬t < t := fun {t} => Int.lt_irrefl t.rank
  rcases hkl with hlt | ⟨htime, hname⟩
  · rcases hlk with hgt | ⟨htime, -⟩
    · exact absurd (Int.lt_trans hlt hgt) hnot
    · rw [htime] at hlt
      exact absurd hlt hnot
  · rcases hlk with hgt | ⟨-, hname'⟩
    · rw [htime] at hgt
      exact absurd hgt hnot
    · exact Prod.ext htime (String.le_antisymm hname hname')

theorem Pickup.le_iff_keyLE {p q : Pickup} : p.le q = true ↔ KeyLE p.key q.key :=
  Pickup.le_iff

theorem Pickup.le_of_key_eq {p q : Pickup} (hkey : p.key = q.key) : p.le q = true := by
  obtain ⟨htime, hname⟩ := Prod.mk.inj hkey
  apply Pickup.le_iff.mpr
  right
  exact ⟨htime, hname ▸ String.le_refl _⟩

abbrev Sorted (rows : List Pickup) : Prop := rows.Pairwise fun p q => p.le q = true

section Uniqueness

variable {rows others : List Pickup}

theorem map_key_eq_of_perm (hrows : Sorted rows) (hothers : Sorted others)
    (hperm : rows.Perm others) : rows.map Pickup.key = others.map Pickup.key := by
  have hkeys : ∀ {list : List Pickup}, Sorted list → (list.map Pickup.key).Pairwise KeyLE := by
    intro list hsorted
    rw [List.pairwise_map]
    exact hsorted.imp Pickup.le_iff_keyLE.mp
  refine List.Perm.eq_of_pairwise ?_ (hkeys hrows) (hkeys hothers) (hperm.map _)
  intro k l _ _ hkl hlk
  exact hkl.antisymm hlk

def withKey (rows : List Pickup) (key : Instant × String) : List Pickup :=
  rows.filter fun p => p.key = key

theorem withKey_cons_of_eq (p : Pickup) (rest : List Pickup) :
    withKey (p :: rest) p.key = p :: withKey rest p.key := by
  simp [withKey]

theorem eq_of_withKey (hrows : Sorted rows) (hothers : Sorted others)
    (hkeys : rows.map Pickup.key = others.map Pickup.key)
    (hsame : ∀ key, withKey rows key = withKey others key) : rows = others := by
  induction rows generalizing others with
  | nil =>
      cases others with
      | nil => rfl
      | cons q others => simp at hkeys
  | cons p rows ih =>
      cases others with
      | nil => simp at hkeys
      | cons q others =>
          obtain ⟨hhead, htail⟩ := List.cons.inj hkeys
          have hfirst := hsame p.key
          rw [withKey_cons_of_eq, hhead, withKey_cons_of_eq] at hfirst
          obtain ⟨rfl, -⟩ := List.cons.inj hfirst
          have hrest : rows = others := by
            apply ih hrows.of_cons hothers.of_cons htail
            intro key
            have hkey := hsame key
            by_cases hp : p.key = key
            · subst hp
              rw [withKey_cons_of_eq, withKey_cons_of_eq] at hkey
              exact List.tail_eq_of_cons_eq hkey
            · simpa [withKey, hp] using hkey
          rw [hrest]

end Uniqueness

namespace PickupTable

theorem eq_of_rows {table other : PickupTable} (hrows : table.rows = other.rows) :
    table = other := by
  cases table
  cases other
  congr

theorem ofList_rows (table : PickupTable) : ofList table.rows = table := by
  obtain ⟨rows, hsorted⟩ := table
  simp only [ofList, mk.injEq]
  exact List.mergeSort_of_pairwise hsorted

/-- Sorting is stable. -/
theorem withKey_ofList (pickups : List Pickup) (key : Instant × String) :
    withKey (ofList pickups).rows key = withKey pickups key := by
  -- The pickups of one key are in order as they come, so sorting keeps them as a sublist;
  -- it keeps their number, too, and so the sublist is all of them.
  have hsorted : Sorted (withKey pickups key) := by
    apply List.pairwise_iff_forall_sublist.mpr
    intro p q hpair
    have hmem : ∀ r ∈ [p, q], r.key = key := by
      intro r hr
      exact of_decide_eq_true (List.mem_filter.mp (hpair.subset hr)).2
    apply Pickup.le_of_key_eq
    rw [hmem p (by simp), hmem q (by simp)]
  have hsublist : (withKey pickups key).Sublist (ofList pickups).rows :=
    List.sublist_mergeSort Pickup.le_trans Pickup.le_total hsorted List.filter_sublist
  have hkept : (withKey (withKey pickups key) key).Sublist (withKey (ofList pickups).rows key) :=
    hsublist.filter _
  have hidem : withKey (withKey pickups key) key = withKey pickups key := by
    simp [withKey]
  rw [hidem] at hkept
  have hlength : (withKey (ofList pickups).rows key).length = (withKey pickups key).length :=
    ((rows_ofList_perm pickups).filter _).length_eq
  exact (hkept.eq_of_length hlength.symm).symm

/-- A sorted list of the same pickups, those of each key in the same order, is the table. -/
theorem rows_ofList_eq {pickups rows : List Pickup} (hsorted : Sorted rows)
    (hperm : rows.Perm pickups) (hsame : ∀ key, withKey rows key = withKey pickups key) :
    (ofList pickups).rows = rows := by
  have hkeys : (ofList pickups).rows.map Pickup.key = rows.map Pickup.key :=
    map_key_eq_of_perm (ofList pickups).sorted hsorted ((rows_ofList_perm pickups).trans hperm.symm)
  apply eq_of_withKey (ofList pickups).sorted hsorted hkeys
  intro key
  rw [withKey_ofList, hsame]

/-- Pickups that are all later than some others come after them. -/
theorem rows_ofList_append {pickups later : List Pickup}
    (hlater : ∀ p ∈ pickups, ∀ q ∈ later, p.time < q.time) :
    (ofList (pickups ++ later)).rows = (ofList pickups).rows ++ (ofList later).rows := by
  apply rows_ofList_eq
  · apply List.pairwise_append.mpr
    refine ⟨(ofList pickups).sorted, (ofList later).sorted, fun p hp q hq => ?_⟩
    apply Pickup.le_iff.mpr
    left
    exact hlater p ((rows_ofList_perm pickups).mem_iff.mp hp) q
      ((rows_ofList_perm later).mem_iff.mp hq)
  · exact (rows_ofList_perm pickups).append (rows_ofList_perm later)
  · intro key
    have hpickups := withKey_ofList pickups key
    have hlater := withKey_ofList later key
    simp only [withKey, List.filter_append] at hpickups hlater ⊢
    rw [hpickups, hlater]

/-- Sorting parts of a list beforehand changes nothing. -/
theorem ofList_flatMap_rows (parts : List (List Pickup)) :
    ofList (parts.flatMap fun part => (ofList part).rows) = ofList parts.flatten := by
  apply eq_of_rows
  symm
  apply rows_ofList_eq (ofList _).sorted
  · apply (rows_ofList_perm _).trans
    induction parts with
    | nil => exact .nil
    | cons part parts ih =>
        rw [List.flatMap_cons, List.flatten_cons]
        exact (rows_ofList_perm part).append ih
  · intro key
    rw [withKey_ofList]
    induction parts with
    | nil => rfl
    | cons part parts ih =>
        have hpart := withKey_ofList part key
        simp only [withKey, List.flatMap_cons, List.flatten_cons, List.filter_append] at ih hpart ⊢
        rw [ih, hpart]

end PickupTable
end ZoneDemand
