import Mathlib.Data.List.Basic
import ZoneDemand.Proofs.Csv.Concatenation
import ZoneDemand.Proofs.Instant.Order
import ZoneDemand.Proofs.Staging.Attempt
import ZoneDemand.Proofs.Zones.Sorting

/-!
# The table of a staged file

Objects are staged one after another without anything between them.  If each of them is a
table and a line ends wherever two of them meet, the staged file is the table of all their
pickups.  If somewhere no line ends, records have run together there, and reading fails for
their number of fields: it never answers a table of other pickups.
-/

namespace ZoneDemand

/-- A call that downloads leaves the objects of the listed keys one after another, if none of
them is the file under construction. -/
theorem Attempt.read_of_downloaded {a : Attempt} {path : String} {keys : List String}
    {objects : List Bytes} {count size : Nat} (hlist : a.store.list a.tree a.stem = .ok keys)
    (hothers : ∀ key ∈ keys, ¬a.store.Names (a.made path) (Staging.temporaryPath path) key)
    (hobjects : List.Forall₂ (fun key data => a.store.object? (a.made path) key = some data)
      keys objects)
    (hdone : (a.staging path).outcome = .ok (.downloaded count size)) :
    (a.staging path).files.read path = .ok objects.flatten := by
  have habsent : a.tree.exists? path = false := by
    rw [← Bool.not_eq_true]
    intro hexists
    rw [(skips_of_exists hexists).outcome, Except.ok.injEq] at hdone
    contradiction
  cases keys with
  | nil => simp [staging, Staging.run, habsent, hlist] at hdone
  | cons key keys =>
      have hconstruction := a.construction path (key :: keys)
      have hrun := staging_of_listed habsent hlist
      rw [hrun] at hdone ⊢
      generalize Staging.ofKeys a.store a.tree path a.chunk (key :: keys) = made
        at hconstruction hdone ⊢
      cases hconstruction with
      | failed hfiles hgone => contradiction
      | @staged _ _ staged hstaged hread =>
          have hcomplete : List.Forall₂
              (fun key data => a.store.object? (a.made path) key = some data)
              (key :: keys) staged := by
            have hboth := (List.forall₂_and_left _ _).mpr ⟨hothers, hstaged⟩
            exact hboth.imp fun other data h => h.2.object? h.1
          have hunique : Relator.RightUnique fun key data =>
              a.store.object? (a.made path) key = some data := by
            intro key data other hdata hother
            exact Option.some.inj (hdata.symm.trans hother)
          rw [hread, hunique.forall₂ hcomplete hobjects]

/-! ## Objects that are read on their own -/

section Objects

variable {objects : List Bytes} {pickups : List (List Pickup)}
  (hplain : ∀ object ∈ objects, Csv.Plain object)
  (hread : List.Forall₂ (fun object read => Pickup.ofBytes object = .ok read) objects pickups)
include hplain hread

theorem readsAs_objects :
    List.Forall₂ (fun object read => List.Forall₂ ReadsAs (Csv.rows object) read)
      objects pickups := by
  have hboth := (List.forall₂_and_left _ _).mpr ⟨hplain, hread⟩
  exact hboth.imp fun object read h => (Pickup.ofBytes_eq_ok_iff h.1).mp h.2

theorem everyRowReads_objects : ∀ object ∈ objects, Csv.EveryRowReads object := by
  intro object hobject
  obtain ⟨read, hrows⟩ := exists_of_forall₂ (readsAs_objects hplain hread) object hobject
  exact exists_of_forall₂ hrows

theorem ofBytes_of_separated (hseparated : Csv.Separated objects) :
    Pickup.ofBytes objects.flatten = .ok pickups.flatten := by
  have hwhole := Csv.plain_flatten hplain (everyRowReads_objects hplain hread)
  rw [Pickup.ofBytes_eq_ok_iff hwhole, Csv.rows_flatten_of_separated hseparated]
  apply List.rel_flatten
  rw [List.forall₂_map_left_iff]
  exact readsAs_objects hplain hread

theorem ofBytes_of_not_separated (hseparated : ¬Csv.Separated objects) :
    ∃ line fields, Pickup.ofBytes objects.flatten = .error (.row line (.columns fields)) := by
  have heach := everyRowReads_objects hplain hread
  obtain ⟨before, row, after, hrows, hbefore, hrow⟩ :=
    Csv.runsTogether_of_not_separated heach hseparated
  exact Pickup.ofBytes_of_overlong (Csv.plain_flatten hplain heach) hrows hbefore hrow

end Objects

namespace PickupTable

theorem exists_pickups {objects : List Bytes} {tables : List PickupTable}
    (htables : List.Forall₂ (fun object table => ofBytes object = .ok table) objects tables) :
    ∃ pickups, List.Forall₂ (fun object read => Pickup.ofBytes object = .ok read) objects pickups ∧
      tables = pickups.map ofList := by
  induction htables with
  | nil => exact ⟨[], .nil, rfl⟩
  | cons hobject _ ih =>
      obtain ⟨read, hread, rfl⟩ := map_eq_ok_iff.mp hobject
      obtain ⟨pickups, hpickups, rfl⟩ := ih
      exact ⟨read :: pickups, .cons hread hpickups, rfl⟩

/-- What is staged of objects that are tables, none with quotes or a byte-order mark and none
the file under construction itself, is the table of all their pickups if a line ends wherever
two of them meet, and otherwise fails for the columns of a record. -/
theorem ofBytes_of_staged {objects : List Bytes} {tables : List PickupTable}
    (hplain : ∀ object ∈ objects, Csv.Plain object)
    (htables : List.Forall₂ (fun object table => ofBytes object = .ok table) objects tables) :
    (∀ (a : Attempt) (path : String) (keys : List String) (count size : Nat),
      a.store.list a.tree a.stem = .ok keys →
      (∀ key ∈ keys, ¬a.store.Names (a.made path) (Staging.temporaryPath path) key) →
      List.Forall₂ (fun key data => a.store.object? (a.made path) key = some data) keys objects →
      (a.staging path).outcome = .ok (.downloaded count size) →
      (a.staging path).files.read path = .ok objects.flatten) ∧
    (Csv.Separated objects → ∃ pickups,
      List.Forall₂ (fun object read => Pickup.ofBytes object = .ok read) objects pickups ∧
      ofBytes objects.flatten = .ok (ofList pickups.flatten) ∧
      ofList pickups.flatten = ofList (tables.flatMap rows)) ∧
    (¬Csv.Separated objects → ∃ line fault,
      ofBytes objects.flatten = .error (.row line fault) ∧ fault.column = "record") := by
  obtain ⟨pickups, hread, rfl⟩ := exists_pickups htables
  refine ⟨?_, ?_, ?_⟩
  · intro a path keys count size hlist hothers hobjects hdone
    exact Attempt.read_of_downloaded hlist hothers hobjects hdone
  · intro hseparated
    refine ⟨pickups, hread, ?_, ?_⟩
    · rw [ofBytes, ofBytes_of_separated hplain hread hseparated]
      rfl
    · rw [List.flatMap_map, ofList_flatMap_rows]
  · intro hseparated
    obtain ⟨line, fields, hfault⟩ := ofBytes_of_not_separated hplain hread hseparated
    refine ⟨line, .columns fields, ?_, rfl⟩
    rw [ofBytes, hfault]
    rfl

end PickupTable

def lateObject : Bytes := Utf8.encode "2021-12-13 00:10:00,b,2,x"

def latePickup : Pickup := ⟨tenPast, "b", 2, "x"⟩

def earlyObject : Bytes := Utf8.encode "\n2021-12-13 00:00:00,a,1,y\r\n"

def earlyPickup : Pickup := ⟨midnight, "a", 1, "y"⟩

/-- The objects of a night, read seven octets at a time. -/
def Attempt.night : Attempt where
  store := .memory ⟨[("c", earlyObject), ("a", lateObject), ("b", [])], [], []⟩
  tree := .bare
  stem := ""
  chunk := 7

theorem Attempt.night_listed : night.store.list night.tree night.stem = .ok ["a", "b", "c"] := by
  have hkeys : MemoryStore.list ⟨[("c", earlyObject), ("a", lateObject), ("b", [])], [], []⟩
      (Key.normalize "") = .ok ["c", "a", "b"] := by decide +kernel
  unfold night ObjectStore.list
  dsimp only
  rw [hkeys]
  simp [List.mergeSort, List.MergeSort.Internal.splitInTwo]

theorem Attempt.night_downloaded :
    (night.staging "day.csv").outcome = .ok (.downloaded 3 53) := by
  rw [staging_of_listed (a := night) (by decide +kernel) night_listed]
  decide +kernel

/-- A line ends between the first three objects, which are those of a night, and none between
the other two. -/
theorem staged_lateObject :
    (Attempt.night.staging "day.csv").files.read "day.csv" =
        .ok [lateObject, [], earlyObject].flatten ∧
      PickupTable.ofBytes [lateObject, [], earlyObject].flatten =
        .ok (.ofList [latePickup, earlyPickup]) ∧
      ∃ line fault, PickupTable.ofBytes [lateObject, lateObject].flatten =
        .error (.row line fault) ∧ fault.column = "record" := by
  have hlate : PickupTable.ofBytes lateObject = .ok (.ofList [latePickup]) :=
    map_eq_ok_iff.mpr ⟨[latePickup], by decide +kernel, rfl⟩
  have hnone : PickupTable.ofBytes [] = .ok (.ofList []) :=
    map_eq_ok_iff.mpr ⟨[], by decide +kernel, rfl⟩
  have hearly : PickupTable.ofBytes earlyObject = .ok (.ofList [earlyPickup]) :=
    map_eq_ok_iff.mpr ⟨[earlyPickup], by decide +kernel, rfl⟩
  have hplain : ∀ object ∈ [lateObject, [], earlyObject], Csv.Plain object := by decide +kernel
  have hplainBad : ∀ object ∈ [lateObject, lateObject], Csv.Plain object := by decide +kernel
  obtain ⟨hstaged, hgood, -⟩ :=
    PickupTable.ofBytes_of_staged hplain (.cons hlate (.cons hnone (.cons hearly .nil)))
  obtain ⟨-, -, hbad⟩ :=
    PickupTable.ofBytes_of_staged hplainBad (.cons hlate (.cons hlate .nil))
  have hothers : ∀ key ∈ ["a", "b", "c"], ¬Attempt.night.store.Names
      (Attempt.night.made "day.csv") (Staging.temporaryPath "day.csv") key := by
    rintro key - ⟨d, place, hstore, -⟩
    contradiction
  have hobjects : List.Forall₂ (fun key data =>
      Attempt.night.store.object? (Attempt.night.made "day.csv") key = some data)
      ["a", "b", "c"] [lateObject, [], earlyObject] :=
    .cons (by decide +kernel) (.cons (by decide +kernel) (.cons (by decide +kernel) .nil))
  obtain ⟨pickups, -, hread, hsame⟩ := hgood (by decide +kernel)
  refine ⟨?_, ?_, hbad (by decide +kernel)⟩
  · exact hstaged Attempt.night "day.csv" _ 3 53 Attempt.night_listed hothers hobjects
      Attempt.night_downloaded
  · rw [hread, hsame]
    simp [PickupTable.ofList]

end ZoneDemand
