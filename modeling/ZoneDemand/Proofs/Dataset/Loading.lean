import ZoneDemand.Proofs.Csv.Layout
import ZoneDemand.Proofs.Csv.Pickups
import ZoneDemand.Proofs.Text.Decoding
import ZoneDemand.Proofs.Text.Unsigned
import ZoneDemand.Proofs.Zones.Sorting

/-!
# Which contents are tables

A content is a table exactly if each of its rows is a pickup, and the table then holds these
pickups and no others, in order.  Otherwise the first row that is no pickup decides the error,
and within it the first check that fails.
-/

namespace ZoneDemand

/-! ## What a row says -/

namespace Csv.Row

/-- The fields are the octets of these texts. -/
def Reads (row : Row) (texts : List String) : Prop := row.fields = texts.map Utf8.encode

/-- Four texts, of which the first is a timestamp and the third a count. -/
inductive Says (row : Row) (pickup : Pickup) : Prop where
  | intro {time count : String}
      (hread : row.Reads [time, pickup.geohash, count, pickup.location])
      (htime : Instant.parse time = .ok pickup.time)
      (hcount : Unsigned.Denotes count.toList pickup.count.toNat)

/-- The first check that fails decides the error: whether every field is text, their number,
the timestamp, and the count. -/
inductive FailsWith (row : Row) (index : Nat) : DataError → Prop where
  | encoding {before : List String} {field : Bytes} {after : List Bytes} {position : Nat}
      (hfields : row.fields = before.map Utf8.encode ++ field :: after)
      (htext : ∀ text, field ≠ Utf8.encode text)
      (hposition : Utf8.IllFormedAt field position) :
      FailsWith row index (.encoding index row.place before.length position)
  | columns {texts : List String} {fault : RowFault} (hread : row.Reads texts)
      (hnumber : texts.length ≠ 4) (hcolumn : fault.column = "record")
      (hvalue : fault.value = ",".intercalate texts) :
      FailsWith row index (.row row.place.line fault)
  | time {time geohash count location : String} {fault : RowFault}
      (hread : row.Reads [time, geohash, count, location])
      (htime : ∀ t, Instant.parse time ≠ .ok t) (hcolumn : fault.column = "timestamp")
      (hvalue : fault.value = time) :
      FailsWith row index (.row row.place.line fault)
  | count {time geohash count location : String} {t : Instant} {fault : RowFault}
      (hread : row.Reads [time, geohash, count, location]) (htime : Instant.parse time = .ok t)
      (hcount : ∀ n : UInt64, ¬Unsigned.Denotes count.toList n.toNat)
      (hcolumn : fault.column = "pickup_count") (hvalue : fault.value = count) :
      FailsWith row index (.row row.place.line fault)

end Csv.Row

/-! ## Reading a row -/

/-- Either all fields are texts, or the first one that is none decides the error. -/
theorem Csv.texts_splits (fields : List Bytes) :
    (∃ read, fields = read.map Utf8.encode ∧ texts fields = .ok read) ∨
      ∃ before field after position,
        fields = List.map Utf8.encode before ++ field :: after ∧
        Utf8.decode field = .error position ∧
        texts fields = .error (before.length, position) := by
  induction fields with
  | nil => exact .inl ⟨[], rfl, rfl⟩
  | cons field fields ih =>
      cases hdecode : Utf8.decode field with
      | error position =>
          exact .inr ⟨[], field, fields, position, rfl, hdecode, by simp [texts, hdecode]⟩
      | ok text =>
          have hfield := Utf8.decode_eq_ok_iff.mp hdecode
          rcases ih with ⟨read, hfields, hread⟩ |
            ⟨before, bad, after, position, hfields, hbad, herror⟩
          · refine .inl ⟨text :: read, ?_, by simp [texts, hdecode, hread]⟩
            rw [hfield, hfields, List.map_cons]
          · refine .inr ⟨text :: before, bad, after, position, ?_, hbad,
              by simp [texts, hdecode, herror]⟩
            rw [hfield, hfields, List.map_cons, List.cons_append]

theorem Csv.texts_eq_ok_iff {fields : List Bytes} {read : List String} :
    texts fields = .ok read ↔ fields = read.map Utf8.encode := by
  have hinjective : Function.Injective Utf8.encode := fun _ _ => Utf8.encode_injective
  rcases texts_splits fields with ⟨others, hfields, hread⟩ |
    ⟨before, field, after, position, hfields, hbad, herror⟩
  · rw [hread, hfields, Except.ok.injEq, hinjective.list_map.eq_iff]
  · rw [herror, hfields]
    simp only [reduceCtorEq, false_iff]
    intro hsame
    have hmem : field ∈ read.map Utf8.encode := hsame ▸ by simp
    obtain ⟨text, -, htext⟩ := List.mem_map.mp hmem
    exact Utf8.ne_encode_of_decode hbad text htext.symm

theorem Pickup.ofFields_of_length_ne {read : List String} (hnumber : read.length ≠ 4) :
    ofFields read = .error (.columns read) := by
  unfold ofFields
  split
  · exact absurd rfl hnumber
  · rfl

theorem exists_four_of_length {read : List String} (hnumber : read.length = 4) :
    ∃ time geohash count location, read = [time, geohash, count, location] :=
  match read, hnumber with
  | [time, geohash, count, location], _ => ⟨time, geohash, count, location, rfl⟩

section Row

variable {row : Csv.Row} {index : Nat}

theorem Pickup.ofRecord_of_reads {read : List String} (hread : row.Reads read) :
    ofRecord (row.record index) = (ofFields read).mapError (.row row.place.line) := by
  have htexts : Csv.texts row.fields = .ok read := Csv.texts_eq_ok_iff.mpr hread
  unfold ofRecord
  simp only [Csv.Row.record, htexts]
  cases ofFields read <;> rfl

theorem Csv.Row.Says.ofRecord_eq {pickup : Pickup} (h : row.Says pickup) :
    Pickup.ofRecord (row.record index) = .ok pickup := by
  obtain ⟨hread, htime, hcount⟩ := h
  have hnumber := parseCount_eq_ok_iff.mpr hcount
  rw [Pickup.ofRecord_of_reads hread]
  simp [Pickup.ofFields, htime, hnumber]

/-- A row of four texts is a pickup, or its timestamp or its count is at fault. -/
theorem Csv.Row.says_or_failsWith_of_four {time geohash count location : String}
    (hread : row.Reads [time, geohash, count, location]) :
    (∃ pickup, row.Says pickup) ∨
      ∃ fault, Pickup.ofRecord (row.record index) = .error fault ∧ row.FailsWith index fault := by
  have hrecord : Pickup.ofRecord (row.record index) =
      (Pickup.ofFields [time, geohash, count, location]).mapError (.row row.place.line) :=
    Pickup.ofRecord_of_reads hread
  cases htime : Instant.parse time with
  | error cause =>
      refine .inr ⟨.row row.place.line (.time time cause), ?_, .time hread ?_ rfl rfl⟩
      · rw [hrecord]
        simp [Pickup.ofFields, htime]
      · intro t ht
        rw [htime] at ht
        contradiction
  | ok t =>
      cases hcount : parseCount count with
      | error cause =>
          refine .inr ⟨.row row.place.line (.count count cause), ?_, .count hread htime ?_ rfl rfl⟩
          · rw [hrecord]
            simp [Pickup.ofFields, htime, hcount]
          · intro n hn
            rw [parseCount_eq_ok_iff.mpr hn] at hcount
            contradiction
      | ok n =>
          exact .inl ⟨⟨t, geohash, n, location⟩,
            .intro hread htime (parseCount_eq_ok_iff.mp hcount)⟩

theorem Csv.Row.says_or_failsWith (row : Csv.Row) (index : Nat) :
    (∃ pickup, row.Says pickup) ∨
      ∃ fault, Pickup.ofRecord (row.record index) = .error fault ∧ row.FailsWith index fault := by
  rcases texts_splits row.fields with ⟨read, hfields, -⟩ |
    ⟨before, field, after, position, hfields, hbad, herror⟩
  · by_cases hnumber : read.length = 4
    · obtain ⟨time, geohash, count, location, rfl⟩ := exists_four_of_length hnumber
      exact says_or_failsWith_of_four hfields
    · refine .inr ⟨.row row.place.line (.columns read), ?_, .columns hfields hnumber rfl rfl⟩
      rw [Pickup.ofRecord_of_reads hfields, Pickup.ofFields_of_length_ne hnumber]
      rfl
  · refine .inr ⟨.encoding index row.place before.length position, ?_,
      .encoding hfields (Utf8.ne_encode_of_decode hbad) (Utf8.illFormedAt_of_decode hbad)⟩
    simp [Pickup.ofRecord, record, herror]

theorem Pickup.ofRecord_eq_ok_iff_says {pickup : Pickup} :
    ofRecord (row.record index) = .ok pickup ↔ row.Says pickup := by
  constructor
  · intro hok
    rcases row.says_or_failsWith index with ⟨other, hother⟩ | ⟨fault, herror, -⟩
    · rw [hother.ofRecord_eq, Except.ok.injEq] at hok
      rwa [← hok]
    · rw [herror] at hok
      contradiction
  · exact Csv.Row.Says.ofRecord_eq

theorem Pickup.failsWith_of_ofRecord {fault : DataError}
    (herror : ofRecord (row.record index) = .error fault) : row.FailsWith index fault := by
  rcases row.says_or_failsWith index with ⟨pickup, hpickup⟩ | ⟨other, hother, hfails⟩
  · rw [hpickup.ofRecord_eq] at herror
    contradiction
  · rw [hother, Except.error.injEq] at herror
    rwa [← herror]

end Row

/-! ## Reading all rows -/

theorem forall₂_mapIdx_left_iff {α β γ : Type} {R : β → γ → Prop} {S : α → γ → Prop}
    {f : Nat → α → β} (hf : ∀ i a c, R (f i a) c ↔ S a c) {list : List α} {others : List γ} :
    List.Forall₂ R (list.mapIdx f) others ↔ List.Forall₂ S list others := by
  induction list generalizing f others with
  | nil => simp
  | cons a list ih =>
      rw [List.mapIdx_cons, List.forall₂_cons_left_iff, List.forall₂_cons_left_iff]
      simp only [hf, ih fun i => hf (i + 1)]

section Rows

variable {content : Bytes} {rows : List Csv.Row} (hrows : Csv.LaidOut content rows)
include hrows

theorem Pickup.ofBytes_eq_ok_iff_says {pickups : List Pickup} :
    ofBytes content = .ok pickups ↔ List.Forall₂ Csv.Row.Says rows pickups := by
  rw [ofBytes, Csv.records_of_laidOut hrows, mapM_eq_ok_iff]
  exact forall₂_mapIdx_left_iff fun i row pickup => ofRecord_eq_ok_iff_says

theorem PickupTable.failsWith_of_ofBytes {fault : DataError}
    (herror : ofBytes content = .error fault) :
    ∃ before row after, rows = before ++ row :: after ∧ (∀ r ∈ before, ∃ pickup, r.Says pickup) ∧
      row.FailsWith before.length fault := by
  rw [ofBytes, map_eq_error_iff, Pickup.ofBytes, Csv.records_of_laidOut hrows] at herror
  obtain ⟨good, record, others, hrecords, hgood, hrecord⟩ := exists_of_mapM_eq_error herror
  obtain ⟨before, rest, hsplit, rfl, hrest⟩ := List.mapIdx_eq_append_iff.mp hrecords
  obtain ⟨row, after, rfl, rfl, -⟩ := List.mapIdx_eq_cons_iff.mp hrest
  rw [Nat.zero_add] at hrecord
  refine ⟨before, row, after, hsplit, ?_, Pickup.failsWith_of_ofRecord hrecord⟩
  intro r hr
  obtain ⟨i, hi, rfl⟩ := List.getElem_of_mem hr
  obtain ⟨pickup, hpickup⟩ := hgood (before[i].record i) (List.mem_mapIdx.mpr ⟨i, hi, rfl⟩)
  exact ⟨pickup, Pickup.ofRecord_eq_ok_iff_says.mp hpickup⟩

end Rows

/-! ## The table -/

/-- The same pickups by time and then by the octets of the geohash, those that agree in both in
the order in which they came. -/
structure Sorts (pickups rows : List Pickup) : Prop where
  perm : rows.Perm pickups
  ordered : rows.Pairwise fun p q =>
    p.time < q.time ∨ p.time = q.time ∧ Utf8.encode p.geohash ≤ Utf8.encode q.geohash
  stable : ∀ key, withKey rows key = withKey pickups key

theorem PickupTable.ofList_eq_iff {pickups : List Pickup} {table : PickupTable} :
    ofList pickups = table ↔ Sorts pickups table.rows := by
  constructor
  · rintro rfl
    refine ⟨rows_ofList_perm pickups, (ofList pickups).sorted.imp ?_, withKey_ofList pickups⟩
    intro p q hle
    rw [Utf8.encode_le_iff]
    exact Pickup.le_iff.mp hle
  · intro h
    apply eq_of_rows
    exact rows_ofList_eq table.sorted h.perm h.stable

/-- A content is read as a table exactly if its rows are pickups, which the table then holds in
order; if not, the first row that is none is reported. -/
theorem PickupTable.ofBytes_reads (content : Bytes) :
    ∃ rows, Csv.LaidOut content rows ∧ (∀ others, Csv.LaidOut content others → others = rows) ∧
      ((∃ table, ofBytes content = .ok table) ↔ ∀ row ∈ rows, ∃ pickup, row.Says pickup) ∧
      (∀ table, ofBytes content = .ok table ↔
        ∃ pickups, List.Forall₂ Csv.Row.Says rows pickups ∧ Sorts pickups table.rows) ∧
      ∀ fault, ofBytes content = .error fault →
        ∃ before row after, rows = before ++ row :: after ∧
          (∀ r ∈ before, ∃ pickup, r.Says pickup) ∧ row.FailsWith before.length fault := by
  obtain ⟨rows, hrows⟩ := Csv.exists_laidOut content
  have htable : ∀ table, ofBytes content = .ok table ↔
      ∃ pickups, List.Forall₂ Csv.Row.Says rows pickups ∧ Sorts pickups table.rows := by
    intro table
    rw [ofBytes, map_eq_ok_iff]
    simp only [Pickup.ofBytes_eq_ok_iff_says hrows, ofList_eq_iff]
  refine ⟨rows, hrows, fun others hothers => hothers.unique hrows, ?_, htable,
    fun fault => failsWith_of_ofBytes hrows⟩
  constructor
  · rintro ⟨table, hok⟩
    obtain ⟨pickups, hpickups, -⟩ := (htable table).mp hok
    exact exists_of_forall₂ hpickups
  · intro hall
    obtain ⟨pickups, hpickups⟩ := exists_forall₂_of_forall hall
    exact ⟨ofList pickups, (htable _).mpr ⟨pickups, hpickups, ofList_eq_iff.mp rfl⟩⟩

end ZoneDemand
