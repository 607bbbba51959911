import Mathlib.Data.List.Permutation
import ZoneDemand.Proofs.Dataset.Composition
import ZoneDemand.Proofs.Resample.Counts
import ZoneDemand.Proofs.Resample.Windows
import ZoneDemand.Proofs.SeriesRecord.RoundTrip
import ZoneDemand.Proofs.Zones.Order

/-!
# What a dataset says

The lines of a dataset are those of the zones of the staged pickups, in order.  Every line
says, for each interval of the common range, how many pickups of its zone the policy counts
there; the training line says the same of all intervals but the last ones.
-/

namespace ZoneDemand

/-- The geohashes of pickups, each once, in the order in which they are first seen. -/
structure ZonesOf (pickups : List Pickup) (zones : List String) : Prop where
  nodup : zones.Nodup
  mem_iff : ∀ zone, zone ∈ zones ↔ ∃ p ∈ pickups, p.geohash = zone
  ordered : zones.Pairwise (ComesBefore pickups)

def counted (pickups : List Pickup) (zone : String) (policy : ResamplePolicy) (first : Instant)
    (n : Int) (k : Nat) : List Pickup :=
  (pickupsIn pickups zone).filter fun p => policy.Counts first n k p.time

/-- The counts are those of a zone on `size` intervals of `n` seconds from `first` on. -/
structure CountsOf (pickups : List Pickup) (zone : String) (policy : ResamplePolicy)
    (first : Instant) (n : Int) (size : Nat) (counts : List UInt64) : Prop where
  length : counts.length = size
  count : ∀ k c, counts[k]? = some c →
    c.toNat = min maxCount (total (counted pickups zone policy first n k))

theorem ZonesOf.of_perm {pickups rows : List Pickup} {zones : List String}
    (h : ZonesOf rows zones) (hperm : rows.Perm pickups) : ZonesOf pickups zones := by
  refine ⟨h.nodup, fun zone => ?_, h.ordered.imp fun hbefore => hbefore.congr ?_⟩
  · simp only [h.mem_iff, hperm.mem_iff]
  · exact fun p _ => hperm.mem_iff.symm

theorem ZonesOf.length_eq {pickups : List Pickup} {zones : List String}
    (h : ZonesOf pickups zones) :
    zones.length = (distinct (pickups.map Pickup.geohash)).length := by
  apply List.Perm.length_eq
  rw [List.perm_ext_iff_of_nodup h.nodup (nodup_distinct _)]
  intro zone
  rw [h.mem_iff, mem_distinct]

theorem ZonesOf.exists_head {pickups : List Pickup} {zones : List String}
    (h : ZonesOf pickups zones) (hrows : pickups ≠ []) : ∃ zone, zones.head? = some zone := by
  cases zones with
  | nil =>
      obtain ⟨p, hp⟩ := List.exists_mem_of_ne_nil pickups hrows
      have hmem := (h.mem_iff p.geohash).mpr ⟨p, hp, rfl⟩
      simp at hmem
  | cons zone zones => exact ⟨zone, rfl⟩

theorem CountsOf.of_perm {pickups rows : List Pickup} {zone : String} {policy : ResamplePolicy}
    {first : Instant} {n : Int} {size : Nat} {counts : List UInt64}
    (h : CountsOf rows zone policy first n size counts) (hperm : rows.Perm pickups) :
    CountsOf pickups zone policy first n size counts := by
  refine ⟨h.length, fun k c hc => ?_⟩
  rw [h.count k c hc]
  exact congrArg (min maxCount) (total_of_perm ((hperm.filter _).filter _))

/-- Where two lists of pickups have the same totals, they give a zone the same counts. -/
theorem CountsOf.take_eq {pickups others : List Pickup} {zone : String} {policy : ResamplePolicy}
    {first : Instant} {n : Int} {size otherSize m : Nat} {counts otherCounts : List UInt64}
    (h : CountsOf pickups zone policy first n size counts)
    (hother : CountsOf others zone policy first n otherSize otherCounts)
    (hsize : m ≤ size) (hotherSize : m ≤ otherSize)
    (htotal : ∀ k < m, total (counted pickups zone policy first n k) =
      total (counted others zone policy first n k)) :
    counts.take m = otherCounts.take m := by
  have hlength := h.length
  have hotherLength := hother.length
  apply List.ext_getElem
  · rw [List.length_take, List.length_take]
    omega
  · intro k hk hotherK
    rw [List.length_take] at hk hotherK
    rw [List.getElem_take, List.getElem_take]
    apply UInt64.toNat_inj.mp
    rw [h.count k _ (List.getElem?_eq_getElem (by omega)),
      hother.count k _ (List.getElem?_eq_getElem (by omega)), htotal k (by omega)]

/-! ## The zones of a table -/

theorem ZoneSet.ofTable_eq_ok {table : PickupTable} (hrows : table.rows ≠ []) :
    ∃ zones, ZoneSet.ofTable table = .ok zones ∧ ZonesOf table.rows zones.geohashes ∧
      Earliest table.rows zones.range.start ∧ Latest table.rows zones.range.finish := by
  have hsorted := table.sorted
  unfold ZoneSet.ofTable
  split
  · rename_i hempty
    exact absurd hempty hrows
  · rename_i first rest hcons
    rw [hcons] at hsorted ⊢
    refine ⟨_, rfl, ⟨nodup_distinct _, fun zone => ?_, pairwise_distinct hsorted⟩,
      earliest_rows first rest, latest_rows first rest⟩
    exact mem_distinct

theorem ZoneSet.ofTable_eq_error {table : PickupTable} (hrows : table.rows = []) :
    ZoneSet.ofTable table = .error .emptyTable := by
  unfold ZoneSet.ofTable
  split
  · rfl
  · rename_i hcons
    rw [hrows] at hcons
    contradiction

theorem ZoneSet.of_ofTable {table : PickupTable} {zones : ZoneSet}
    (hzones : ZoneSet.ofTable table = .ok zones) :
    ZonesOf table.rows zones.geohashes ∧ Earliest table.rows zones.range.start ∧
      Latest table.rows zones.range.finish := by
  have hrows : table.rows ≠ [] := by
    intro hempty
    simp [ZoneSet.ofTable, hempty] at hzones
  obtain ⟨found, hfound, hdescribes⟩ := ZoneSet.ofTable_eq_ok hrows
  rw [hzones, Except.ok.injEq] at hfound
  rw [hfound]
  exact hdescribes

def PickupTable.zoneSeries (table : PickupTable) (range : TimeRange) (step : Step) (n : Int)
    (policy : ResamplePolicy) (zone : String) : Series :=
  (ZoneCount.ofTable table ⟨range, step, range.size n⟩ policy zone).series

theorem PickupTable.ofZone_eq (table : PickupTable) (zone : String) :
    table.ofZone zone = pickupsIn table.rows zone := by
  refine List.filter_congr fun p _ => ?_
  by_cases hname : p.geohash = zone <;> simp [hname]

theorem resample_of_intervalCount {table : PickupTable} {zones : ZoneSet} {step : Step} {size : Nat}
    (hrows : table.rows ≠ []) (hcount : zones.range.intervalCount step = .ok size)
    (policy : ResamplePolicy) :
    resample table zones step policy = .ok ⟨zones.geohashes.map (ZoneCount.ofTable table
      ⟨zones.range, step, size⟩ policy), size⟩ := by
  have hgrid : Grid.ofRange zones.range step = .ok ⟨zones.range, step, size⟩ := by
    rw [Grid.ofRange, hcount]
    rfl
  have hempty : table.isEmpty = false := by
    rw [PickupTable.isEmpty, List.isEmpty_eq_false_iff]
    exact hrows
  unfold resample
  rw [hempty, hgrid]
  rfl

section Table

variable {table : PickupTable} {zones : ZoneSet} {step : Step} {n : Int}
  (hn : 1 ≤ n) (hstep : step.seconds = n)

section Zones

variable (hstart : zones.range.start.leap = false) (hfinish : zones.range.finish.leap = false)
include hn hstep hstart hfinish

/-- The counts in any range are those of the pickups that lie in it. -/
theorem countsOf_within (hregular : ∀ p ∈ table.rows, p.time.leap = false)
    (policy : ResamplePolicy) (zone : String) :
    CountsOf (table.rows.filter fun p => zones.range.Contains p.time) zone policy
      zones.range.start n (zones.range.size n)
      (table.zoneSeries zones.range step n policy zone).counts := by
  have hholds := Tally.holds_ofPickups ⟨zones.range, step, zones.range.size n⟩ policy
    (table.ofZone zone)
  refine ⟨hholds.length, fun k c hc => ?_⟩
  have hslotted : Grid.slotted ⟨zones.range, step, zones.range.size n⟩ policy k
      (table.ofZone zone) = counted (table.rows.filter fun p => zones.range.Contains p.time) zone
        policy zones.range.start n k := by
    simp only [Grid.slotted, counted, table.ofZone_eq, pickupsIn, List.filter_filter]
    refine List.filter_congr fun p hp => ?_
    have hslot := Grid.slot?_eq_some_iff_contains hn hstep hstart hfinish (hregular p hp) policy k
    rw [Bool.eq_iff_iff]
    simp only [Bool.and_eq_true, decide_eq_true_eq, hslot]
    grind
  rw [hholds.toNat_eq hc, hslotted]

theorem resample_of_ne_nil (hrows : table.rows ≠ []) (policy : ResamplePolicy) :
    resample table zones step policy = .ok ⟨zones.geohashes.map (ZoneCount.ofTable table
      ⟨zones.range, step, zones.range.size n⟩ policy), zones.range.size n⟩ :=
  resample_of_intervalCount hrows
    (TimeRange.intervalCount_eq hn hstep hstart hfinish zones.start_le_finish) policy

end Zones

variable (hregular : ∀ p ∈ table.rows, p.time.leap = false)
  (hearliest : Earliest table.rows zones.range.start)
  (hlatest : Latest table.rows zones.range.finish)

include hn hstep hregular hearliest hlatest

theorem countsOf_zoneSeries (policy : ResamplePolicy) (zone : String) :
    CountsOf table.rows zone policy zones.range.start n (zones.range.size n)
      (table.zoneSeries zones.range step n policy zone).counts := by
  have hwithin := countsOf_within hn hstep (hearliest.leap_eq_false hregular)
    (hlatest.leap_eq_false hregular) hregular policy zone
  have hall : (table.rows.filter fun p => zones.range.Contains p.time) = table.rows :=
    List.filter_eq_self.mpr fun p hp =>
      decide_eq_true (show zones.range.Contains p.time from
        ⟨hearliest.bound p hp, hlatest.bound p hp⟩)
  rw [hall] at hwithin
  exact hwithin

theorem resample_eq_ok (policy : ResamplePolicy) :
    ∃ resampled, resample table zones step policy = .ok resampled ∧
      resampled.series = zones.geohashes.map (table.zoneSeries zones.range step n policy) := by
  have hrows : table.rows ≠ [] := by
    obtain ⟨p, hp, -⟩ := hearliest.attained
    exact List.ne_nil_of_mem hp
  rw [resample_of_ne_nil hn hstep (hearliest.leap_eq_false hregular)
    (hlatest.leap_eq_false hregular) hrows policy]
  exact ⟨_, rfl, List.map_map⟩

end Table

/-! ## The halves -/

section Halves

variable {series : List Series} {size horizon : Nat} (hsize : ∀ s ∈ series, s.size = size)
include hsize

theorem Split.ofSeries_of_lt (hlong : horizon < size) :
    Split.ofSeries series horizon = .ok ⟨series.map (·.withoutTail horizon), series, horizon⟩ := by
  have hnone : (series.find? fun s => s.size ≤ horizon) = none := by
    rw [List.find?_eq_none]
    intro s hs
    have hs := hsize s hs
    simp only [decide_eq_true_eq]
    omega
  unfold ofSeries
  rw [hnone]

theorem Split.ofSeries_of_le (hshort : size ≤ horizon) {first : Series}
    (hfirst : series.head? = some first) :
    Split.ofSeries series horizon = .error (.tooShort first.geohash size horizon) := by
  cases series with
  | nil => simp at hfirst
  | cons head rest =>
      rw [List.head?_cons, Option.some.injEq] at hfirst
      subst hfirst
      have hhead := hsize head List.mem_cons_self
      have hfind : (head :: rest).find? (fun s => s.size ≤ horizon) = some head := by
        rw [List.find?_cons_of_pos]
        simp only [decide_eq_true_eq]
        omega
      unfold ofSeries
      rw [hfind]
      simp only [hhead]

end Halves

/-- From the series of the zones on, only the split can fail. -/
theorem Split.ofContent_of_resample {content : Bytes} {table : PickupTable} {zones : ZoneSet}
    {step : Step} {policy : ResamplePolicy} {resampled : Resampled} (horizon : Nat)
    (htable : PickupTable.ofBytes content = .ok table)
    (hzones : ZoneSet.ofTable table = .ok zones)
    (hresample : resample table zones step policy = .ok resampled) :
    Split.ofContent content step policy horizon =
      (Split.ofSeries resampled.series horizon).map fun halves => (halves, resampled.stats) := by
  unfold ofContent
  rw [htable, ok_bind, hzones, ok_bind, hresample, ok_bind]
  cases Split.ofSeries resampled.series horizon <;> rfl

theorem getElem?_recordLines (categories : Bool) (series : List Series) (i : Nat) :
    (recordLines categories series)[i]? = series[i]?.map fun s =>
      (SeriesRecord.ofSeries s (if categories then some (UInt32.ofNat i) else none)).encode := by
  simp [recordLines, seriesRecords, Function.comp_def]

/-! ## The lines -/

structure RecordOf (pickups : List Pickup) (policy : ResamplePolicy) (first : Instant) (n : Int)
    (size : Nat) (categories : Bool) (i : Nat) (zone : String) (r : SeriesRecord) : Prop where
  start : r.start = first.format
  counts : CountsOf pickups zone policy first n size r.target
  category : r.cat.map (List.map UInt32.toNat) = if categories then some [i] else none

/-- Both halves have a line for each zone; the record of the training line is that of the
test line without its last counts. -/
structure LinesOf (pickups : List Pickup) (policy : ResamplePolicy) (first : Instant) (n : Int)
    (size horizon : Nat) (categories : Bool) (zones train test : List String) : Prop where
  train_length : train.length = zones.length
  test_length : test.length = zones.length
  line : ∀ i zone, zones[i]? = some zone → ∃ r trainLine testLine,
    RecordOf pickups policy first n size categories i zone r ∧
      test[i]? = some testLine ∧ SeriesRecord.decode testLine = .ok r ∧
      train[i]? = some trainLine ∧ trainLine =
        { r with target := r.target.take (size - horizon) }.encode ∧
      SeriesRecord.decode trainLine = .ok { r with target := r.target.take (size - horizon) }

theorem linesOf_series {pickups : List Pickup} {policy : ResamplePolicy} {first : Instant}
    {n : Int} {size horizon : Nat} {zones : List String} {zoneSeries : String → Series}
    (hstart : ∀ zone, (zoneSeries zone).start = first)
    (hcounts : ∀ zone, CountsOf pickups zone policy first n size (zoneSeries zone).counts)
    (hfew : zones.length < 2 ^ 32) (categories : Bool) :
    LinesOf pickups policy first n size horizon categories zones
      (recordLines categories ((zones.map zoneSeries).map (·.withoutTail horizon)))
      (recordLines categories (zones.map zoneSeries)) := by
  constructor
  · simp [recordLines, seriesRecords]
  · simp [recordLines, seriesRecords]
  · intro i zone hzone
    have hsmall : i < 2 ^ 32 := by
      obtain ⟨hlength, -⟩ := List.getElem?_eq_some_iff.mp hzone
      omega
    have hsize : (zoneSeries zone).size = size := (hcounts zone).length
    refine ⟨SeriesRecord.ofSeries (zoneSeries zone)
      (if categories then some (UInt32.ofNat i) else none), _, _, ⟨?_, hcounts zone, ?_⟩,
      ?_, SeriesRecord.decode_encode _, ?_, rfl, SeriesRecord.decode_encode _⟩
    · simp [SeriesRecord.ofSeries, hstart]
    · cases categories with
      | false => rfl
      | true =>
          change some [(UInt32.ofNat i).toNat] = some [i]
          rw [UInt32.toNat_ofNat_of_lt' hsmall]
    · simp [getElem?_recordLines, hzone]
    · rw [getElem?_recordLines, List.getElem?_map, List.getElem?_map, hzone, ← hsize]
      rfl

section Content

variable {content : Bytes} {pickups : List Pickup} {n : Int} {step : Step}
  (hload : Pickup.ofBytes content = .ok pickups) (hrows : pickups ≠ [])
  (hregular : ∀ p ∈ pickups, p.time.leap = false) (hn : 1 ≤ n)
  (hstep : Step.ofSeconds? n = some step)
include hload hrows hregular hn hstep

/-- A content makes the series of its zones, which the horizon then splits. -/
theorem Split.ofContent_eq (policy : ResamplePolicy) :
    ∃ zones : ZoneSet, ∃ zoneSeries : String → Series, ∃ stats,
      Earliest pickups zones.range.start ∧ Latest pickups zones.range.finish ∧
      ZonesOf pickups zones.geohashes ∧
      (∀ zone, (zoneSeries zone).start = zones.range.start) ∧
      (∀ zone, (zoneSeries zone).geohash = zone) ∧
      (∀ zone, CountsOf pickups zone policy zones.range.start n (zones.range.size n)
        (zoneSeries zone).counts) ∧
      ∀ horizon, Split.ofContent content step policy horizon =
        (Split.ofSeries (zones.geohashes.map zoneSeries) horizon).map fun halves =>
          (halves, stats) := by
  have hperm := PickupTable.rows_ofList_perm pickups
  have htable : PickupTable.ofBytes content = .ok (PickupTable.ofList pickups) := by
    rw [PickupTable.ofBytes, hload]
    rfl
  generalize PickupTable.ofList pickups = table at hperm htable
  have htableRows : table.rows ≠ [] := by
    intro hempty
    rw [hempty, List.nil_perm] at hperm
    exact hrows hperm
  have htableRegular : ∀ p ∈ table.rows, p.time.leap = false := fun p hp =>
    hregular p (hperm.mem_iff.mp hp)
  have hseconds := Step.seconds_of_ofSeconds? hstep
  obtain ⟨zones, hzones, hzonesOf, hearliest, hlatest⟩ := ZoneSet.ofTable_eq_ok htableRows
  obtain ⟨resampled, hresample, hseries⟩ :=
    resample_eq_ok hn hseconds htableRegular hearliest hlatest policy
  refine ⟨zones, table.zoneSeries zones.range step n policy, resampled.stats,
    hearliest.congr fun p => hperm.symm.mem_iff, hlatest.congr fun p => hperm.symm.mem_iff,
    hzonesOf.of_perm hperm, fun _ => rfl, fun _ => rfl, ?_, ?_⟩
  · intro zone
    have hcounts := countsOf_zoneSeries hn hseconds htableRegular hearliest hlatest policy zone
    exact hcounts.of_perm hperm
  · intro horizon
    rw [← hseries]
    exact Split.ofContent_of_resample horizon htable hzones hresample

/-- A content whose pickups are at no leap second fails for a horizon as long as the series;
otherwise it makes the lines of the zones of its pickups. -/
theorem Split.ofContent_describes (policy : ResamplePolicy) (horizon : Nat)
    (hfew : (distinct (pickups.map Pickup.geohash)).length < 2 ^ 32) :
    ∃ first last zones, ∃ size : Nat, Earliest pickups first ∧ Latest pickups last ∧
      ZonesOf pickups zones ∧ (size : Int) = (last.seconds - first.seconds) / n + 1 ∧
      (size ≤ horizon → ∃ zone, zones.head? = some zone ∧
        Split.ofContent content step policy horizon = .error (.tooShort zone size horizon)) ∧
      (horizon < size → ∃ split stats,
        Split.ofContent content step policy horizon = .ok (split, stats) ∧
        ∀ categories, LinesOf pickups policy first n size horizon categories zones
          (recordLines categories split.train) (recordLines categories split.test)) := by
  obtain ⟨zones, zoneSeries, stats, hfirst, hlast, hzonesOf, hstart, hname, hcounts, hsplit⟩ :=
    Split.ofContent_eq hload hrows hregular hn hstep policy
  have hsize : ∀ s ∈ zones.geohashes.map zoneSeries, s.size = zones.range.size n := by
    intro s hs
    obtain ⟨zone, -, rfl⟩ := List.mem_map.mp hs
    exact (hcounts zone).length
  rw [← hzonesOf.length_eq] at hfew
  refine ⟨_, _, zones.geohashes, zones.range.size n, hfirst, hlast, hzonesOf, ?_, ?_, ?_⟩
  · exact TimeRange.size_eq hn (hfirst.leap_eq_false hregular) (hlast.leap_eq_false hregular)
      zones.start_le_finish
  · intro hshort
    obtain ⟨zone, hhead⟩ := hzonesOf.exists_head hrows
    have hfirstSeries : (zones.geohashes.map zoneSeries).head? = some (zoneSeries zone) := by
      rw [List.head?_map, hhead]
      rfl
    refine ⟨zone, hhead, ?_⟩
    rw [hsplit, Split.ofSeries_of_le hsize hshort hfirstSeries, hname]
    rfl
  · intro hlong
    rw [hsplit, Split.ofSeries_of_lt hsize hlong]
    exact ⟨_, _, rfl, linesOf_series hstart hcounts hfew⟩

end Content

/-- Three pickups in two zones, the last of which comes first. -/
def twoZones : Bytes :=
  Utf8.encode "2021-12-13 00:25:00,b,4,x\n2021-12-13 00:10:00,b,2,x\n2021-12-13 00:10:00,a,1,x\n"

def twoZonesPickups : List Pickup :=
  [⟨⟨1639355100, false, by decide, by decide⟩, "b", 4, "x"⟩,
    ⟨tenPast, "b", 2, "x"⟩, ⟨tenPast, "a", 1, "x"⟩]

def twoZonesTable : PickupTable :=
  ⟨[⟨tenPast, "a", 1, "x"⟩, ⟨tenPast, "b", 2, "x"⟩,
    ⟨⟨1639355100, false, by decide, by decide⟩, "b", 4, "x"⟩], by decide +kernel⟩

def twoZonesSplit : Split :=
  ⟨[⟨"a", tenPast, tenMinutes, [1]⟩, ⟨"b", tenPast, tenMinutes, [2]⟩],
    [⟨"a", tenPast, tenMinutes, [1, 0]⟩, ⟨"b", tenPast, tenMinutes, [2, 4]⟩], 1⟩

theorem ofContent_twoZones :
    Split.ofContent twoZones ⟨600000, by decide⟩ .bucketed 1 =
      .ok (twoZonesSplit, ⟨2, 2, 3, 0⟩) := by
  have hload : Pickup.ofBytes twoZones = .ok twoZonesPickups := by decide +kernel
  have htable : PickupTable.ofList twoZonesPickups = twoZonesTable := by
    simp only [PickupTable.ofList, twoZonesTable, PickupTable.mk.injEq]
    cbv
  rw [Split.ofContent, PickupTable.ofBytes, hload, map_ok, ok_bind, htable]
  decide +kernel

theorem twoZones_describes :
    ∃ first last zones, ∃ size : Nat, Earliest twoZonesPickups first ∧
      Latest twoZonesPickups last ∧ ZonesOf twoZonesPickups zones ∧
      (size : Int) = (last.seconds - first.seconds) / 600 + 1 ∧
      ∀ categories, LinesOf twoZonesPickups .bucketed first 600 size 1 categories zones
        (recordLines categories twoZonesSplit.train)
        (recordLines categories twoZonesSplit.test) := by
  have hload : Pickup.ofBytes twoZones = .ok twoZonesPickups := by decide +kernel
  have hstep : Step.ofSeconds? 600 = some ⟨600000, by decide⟩ := rfl
  obtain ⟨first, last, zones, size, hfirst, hlast, hzones, hsize, hshort, hlong⟩ :=
    Split.ofContent_describes hload (by decide) (by decide) (by decide) hstep .bucketed 1
      (by decide +kernel)
  refine ⟨first, last, zones, size, hfirst, hlast, hzones, hsize, ?_⟩
  rcases Nat.lt_or_ge 1 size with hlt | hge
  · obtain ⟨split, stats, hsplit, hlines⟩ := hlong hlt
    rw [ofContent_twoZones, Except.ok.injEq, Prod.mk.injEq] at hsplit
    rw [hsplit.1]
    exact hlines
  · obtain ⟨zone, -, herror⟩ := hshort hge
    rw [ofContent_twoZones] at herror
    simp at herror

end ZoneDemand
