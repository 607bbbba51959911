import ZoneDemand.Proofs.Text.Order
import ZoneDemand.ZoneSet

/-!
# The order of zones

The zones of a sorted table come in the order of the times at which they are first seen,
and zones that are first seen at one time in the order of the octets of their geohashes.
-/

namespace ZoneDemand

/-- The time of a pickup to which those of all others stand in a relation. -/
structure Extreme (r : Instant → Instant → Prop) (pickups : List Pickup) (t : Instant) :
    Prop where
  attained : ∃ p ∈ pickups, p.time = t
  bound : ∀ p ∈ pickups, r t p.time

abbrev Earliest (pickups : List Pickup) (t : Instant) : Prop := Extreme (· ≤ ·) pickups t

abbrev Latest (pickups : List Pickup) (t : Instant) : Prop := Extreme (· ≥ ·) pickups t

def pickupsIn (pickups : List Pickup) (zone : String) : List Pickup :=
  pickups.filter fun p => p.geohash = zone

theorem mem_pickupsIn {pickups : List Pickup} {zone : String} {p : Pickup} :
    p ∈ pickupsIn pickups zone ↔ p ∈ pickups ∧ p.geohash = zone := by
  simp [pickupsIn]

/-- The earlier zone is seen first, or both are first seen at one time and the octets of
its geohash come first. -/
def ComesBefore (pickups : List Pickup) (zone other : String) : Prop :=
  ∃ s t, Earliest (pickupsIn pickups zone) s ∧ Earliest (pickupsIn pickups other) t ∧
    (s < t ∨ s = t ∧ Utf8.encode zone < Utf8.encode other)

section Membership

variable {pickups others : List Pickup} {t : Instant}

theorem Extreme.congr {r : Instant → Instant → Prop} (h : Extreme r pickups t)
    (hmem : ∀ p, p ∈ others ↔ p ∈ pickups) : Extreme r others t := by
  obtain ⟨⟨p, hp, htime⟩, hbound⟩ := h
  exact ⟨⟨p, (hmem p).mpr hp, htime⟩, fun q hq => hbound q ((hmem q).mp hq)⟩

theorem Extreme.singleton {r : Instant → Instant → Prop} (hrefl : ∀ t, r t t) (p : Pickup) :
    Extreme r [p] p.time := by
  refine ⟨⟨p, List.mem_singleton_self p, rfl⟩, fun q hq => ?_⟩
  rw [List.mem_singleton.mp hq]
  exact hrefl p.time

theorem Extreme.leap_eq_false {r : Instant → Instant → Prop} (h : Extreme r pickups t)
    (hregular : ∀ p ∈ pickups, p.time.leap = false) : t.leap = false := by
  obtain ⟨p, hp, rfl⟩ := h.attained
  exact hregular p hp

theorem Extreme.cons {r : Instant → Instant → Prop} {p : Pickup} (h : Extreme r pickups t)
    (hbound : r t p.time) : Extreme r (p :: pickups) t := by
  obtain ⟨⟨q, hq, htime⟩, hothers⟩ := h
  refine ⟨⟨q, List.mem_cons_of_mem p hq, htime⟩, fun other hother => ?_⟩
  rcases List.mem_cons.mp hother with rfl | hother
  · exact hbound
  · exact hothers other hother

theorem ComesBefore.congr {zone other : String} (h : ComesBefore pickups zone other)
    (hmem : ∀ p, p.geohash = zone ∨ p.geohash = other → (p ∈ others ↔ p ∈ pickups)) :
    ComesBefore others zone other := by
  obtain ⟨s, t, hs, ht, horder⟩ := h
  refine ⟨s, t, hs.congr ?_, ht.congr ?_, horder⟩
  · intro p
    rw [mem_pickupsIn, mem_pickupsIn]
    exact and_congr_left fun hzone => hmem p (.inl hzone)
  · intro p
    rw [mem_pickupsIn, mem_pickupsIn]
    exact and_congr_left fun hzone => hmem p (.inr hzone)

end Membership

/-! ## Sorted rows -/

theorem Pickup.le_iff {p q : Pickup} :
    p.le q = true ↔ p.time < q.time ∨ p.time = q.time ∧ p.geohash ≤ q.geohash := by
  simp [Pickup.le]

theorem Pickup.time_le {p q : Pickup} (hle : p.le q = true) : p.time ≤ q.time := by
  rcases Pickup.le_iff.mp hle with hlt | ⟨heq, -⟩
  · exact Int.le_of_lt hlt
  · rw [heq]
    exact Int.le_refl _

section Sorted

variable {first : Pickup} {rest : List Pickup}
  (hsorted : (first :: rest).Pairwise fun p q => p.le q = true)
include hsorted

theorem earliest_of_sorted : Earliest (pickupsIn (first :: rest) first.geohash) first.time := by
  constructor
  · exact ⟨first, mem_pickupsIn.mpr ⟨List.mem_cons_self, rfl⟩, rfl⟩
  · intro p hp
    rcases List.mem_cons.mp (mem_pickupsIn.mp hp).1 with rfl | hrest
    · exact Int.le_refl _
    · exact Pickup.time_le (List.rel_of_pairwise_cons hsorted hrest)

end Sorted

theorem exists_earliest {rows : List Pickup} {zone : String}
    (hsorted : rows.Pairwise fun p q => p.le q = true) (hzone : ∃ p ∈ rows, p.geohash = zone) :
    ∃ q ∈ rows, q.geohash = zone ∧ Earliest (pickupsIn rows zone) q.time := by
  induction rows with
  | nil => simp at hzone
  | cons first rest ih =>
      by_cases hfirst : first.geohash = zone
      · subst hfirst
        exact ⟨first, List.mem_cons_self, rfl, earliest_of_sorted hsorted⟩
      · obtain ⟨p, hp, hname⟩ := hzone
        have hrest : p ∈ rest := by
          rcases List.mem_cons.mp hp with rfl | hrest
          · exact absurd hname hfirst
          · exact hrest
        obtain ⟨q, hq, hqname, hearliest⟩ := ih hsorted.of_cons ⟨p, hrest, hname⟩
        refine ⟨q, List.mem_cons_of_mem first hq, hqname, ?_⟩
        have hsame : pickupsIn (first :: rest) zone = pickupsIn rest zone := by
          simp [pickupsIn, hfirst]
        rw [hsame]
        exact hearliest

theorem comesBefore_first {first : Pickup} {rest : List Pickup} {zone : String}
    (hsorted : (first :: rest).Pairwise fun p q => p.le q = true)
    (hzone : ∃ p ∈ rest, p.geohash = zone) (hother : zone ≠ first.geohash) :
    ComesBefore (first :: rest) first.geohash zone := by
  obtain ⟨p, hp, hname⟩ := hzone
  obtain ⟨q, hq, rfl, hearliest⟩ :=
    exists_earliest hsorted ⟨p, List.mem_cons_of_mem first hp, hname⟩
  have hrest : q ∈ rest := by
    rcases List.mem_cons.mp hq with rfl | hrest
    · exact absurd rfl hother
    · exact hrest
  refine ⟨first.time, q.time, earliest_of_sorted hsorted, hearliest, ?_⟩
  rcases Pickup.le_iff.mp (List.rel_of_pairwise_cons hsorted hrest) with hlt | ⟨heq, hle⟩
  · exact .inl hlt
  · refine .inr ⟨heq, Utf8.encode_lt ?_⟩
    exact Std.lt_of_le_of_ne hle (Ne.symm hother)

theorem distinct_cons (first : Pickup) (rest : List Pickup) :
    distinct ((first :: rest).map Pickup.geohash) = first.geohash ::
      distinct ((rest.filter fun p => p.geohash ≠ first.geohash).map Pickup.geohash) := by
  unfold distinct
  rw [List.map_cons, List.eraseDups_cons, List.filter_map]
  congr 4
  funext p
  by_cases hsame : p.geohash = first.geohash <;> simp [hsame]

theorem mem_distinct {rows : List Pickup} {zone : String} :
    zone ∈ distinct (rows.map Pickup.geohash) ↔ ∃ p ∈ rows, p.geohash = zone := by
  rw [distinct, List.mem_eraseDups, List.mem_map]

/-- The zones of sorted rows, in the order of their first rows, are in order. -/
theorem pairwise_distinct {rows : List Pickup}
    (hsorted : rows.Pairwise fun p q => p.le q = true) :
    (distinct (rows.map Pickup.geohash)).Pairwise (ComesBefore rows) := by
  -- The rows after the first are filtered, so the induction is on their number.
  induction hlength : rows.length using Nat.strongRecOn generalizing rows with
  | ind n ih =>
      cases rows with
      | nil => simp [distinct]
      | cons first rest =>
          have hshort : (rest.filter fun p => p.geohash ≠ first.geohash).length < n := by
            have hfilter := List.length_filter_le (fun p => p.geohash ≠ first.geohash) rest
            rw [← hlength, List.length_cons]
            omega
          have htail := ih _ hshort (hsorted.of_cons.filter _) rfl
          have hothers : ∀ {zone}, zone ∈ distinct ((rest.filter fun p =>
              p.geohash ≠ first.geohash).map Pickup.geohash) →
              (∃ p ∈ rest, p.geohash = zone) ∧ zone ≠ first.geohash := by
            intro zone hzone
            obtain ⟨p, hp, rfl⟩ := mem_distinct.mp hzone
            obtain ⟨hrest, hother⟩ := List.mem_filter.mp hp
            exact ⟨⟨p, hrest, rfl⟩, of_decide_eq_true hother⟩
          rw [distinct_cons, List.pairwise_cons]
          constructor
          · intro zone hzone
            obtain ⟨hrest, hother⟩ := hothers hzone
            exact comesBefore_first hsorted hrest hother
          · refine htail.imp_of_mem fun hzone hother hbefore => hbefore.congr ?_
            intro p hname
            have hne : p.geohash ≠ first.geohash := by
              rcases hname with rfl | rfl
              · exact (hothers hzone).2
              · exact (hothers hother).2
            rw [List.mem_cons, List.mem_filter]
            constructor
            · rintro (rfl | hrest)
              · exact absurd rfl hne
              · exact ⟨hrest, decide_eq_true hne⟩
            · exact fun hmem => .inr hmem.1

/-! ## The common range -/

theorem earliest_rows (first : Pickup) (rest : List Pickup) :
    Earliest (first :: rest) (ZoneSet.earliest first.time rest) := by
  induction rest generalizing first with
  | nil => exact .singleton (fun t => Int.le_refl t.rank) first
  | cons p rest ih =>
      have hstep : ZoneSet.earliest first.time (p :: rest) =
          ZoneSet.earliest (first.time.min p.time) rest := rfl
      rw [hstep, Instant.min]
      split
      · rename_i hlt
        exact (ih p).cons (Int.le_trans (ZoneSet.earliest_le p.time rest) (Int.le_of_lt hlt))
      · rename_i hnot
        have hle : ZoneSet.earliest first.time rest ≤ p.time :=
          Int.le_trans (ZoneSet.earliest_le first.time rest) (Int.not_lt.mp hnot)
        refine ((ih first).cons hle).congr fun q => ?_
        simp only [List.mem_cons, or_left_comm]

theorem latest_rows (first : Pickup) (rest : List Pickup) :
    Latest (first :: rest) (ZoneSet.latest first.time rest) := by
  induction rest generalizing first with
  | nil => exact .singleton (fun t => Int.le_refl t.rank) first
  | cons p rest ih =>
      have hstep : ZoneSet.latest first.time (p :: rest) =
          ZoneSet.latest (first.time.max p.time) rest := rfl
      rw [hstep, Instant.max]
      split
      · rename_i hlt
        have hle : p.time ≤ ZoneSet.latest first.time rest :=
          Int.le_trans (Int.le_of_lt hlt) (ZoneSet.le_latest first.time rest)
        refine ((ih first).cons hle).congr fun q => ?_
        simp only [List.mem_cons, or_left_comm]
      · rename_i hnot
        exact (ih p).cons (Int.le_trans (Int.not_lt.mp hnot) (ZoneSet.le_latest p.time rest))

end ZoneDemand
