import ZoneDemand.Proofs.Csv.Pickups
import ZoneDemand.Proofs.Dataset.Files

/-!
# A dataset file is no table

The lines of a dataset file start with a brace, and no row that starts with one has a time
in its first field.  So no dataset file of a build holds what the build has read.
-/

namespace ZoneDemand

def brace : UInt8 := 0x7B

namespace Csv

theorem scanFields_isPrefix (mode : Mode) (fields : List Bytes) (field : Bytes) (place : Place)
    (octets : Bytes) : fields.reverse <+: (scanFields mode fields field place octets).1 := by
  induction octets generalizing mode fields field place with
  | nil => simp [scanFields]
  | cons octet rest ih =>
      unfold scanFields
      split
      · exact ih _ _ _ _
      · exact ih _ _ _ _
      · have hfields := ih .fieldStart (field.reverse :: fields) [] (place.advance octet)
        rw [List.reverse_cons] at hfields
        exact (List.prefix_append _ _).trans hfields
      · simp

/-- The first field starts with the octets that are open. -/
theorem exists_first_field (mode : Mode) (field : Bytes) (place : Place) (octets : Bytes) :
    ∃ first others, (scanFields mode [] field place octets).1 = first :: others ∧
      field.reverse <+: first := by
  induction octets generalizing mode field place with
  | nil => exact ⟨_, _, rfl, List.prefix_refl _⟩
  | cons octet rest ih =>
      unfold scanFields
      split
      · obtain ⟨first, others, hfields, hfield⟩ := ih _ (octet :: field) (place.advance octet)
        rw [List.reverse_cons] at hfield
        exact ⟨first, others, hfields, (List.prefix_append _ _).trans hfield⟩
      · exact ih _ _ _
      · obtain ⟨others, hfields⟩ :=
          scanFields_isPrefix .fieldStart [field.reverse] [] (place.advance octet) rest
        exact ⟨field.reverse, others, hfields.symm, List.prefix_refl _⟩
      · exact ⟨_, _, rfl, List.prefix_refl _⟩

theorem records_of_brace (octets : Bytes) :
    ∃ record others, records (brace :: octets) = record :: others ∧
      ∃ first rest, record.fields = first :: rest ∧ [brace] <+: first := by
  have hrecords : records (brace :: octets) = recordsFrom 0 .start .start (brace :: octets) := rfl
  have hkept : skipLineEnds .start (brace :: octets) = (.start, brace :: octets) := rfl
  obtain ⟨first, rest, hfields, hfirst⟩ :=
    exists_first_field .plain [brace] (Place.start.advance brace) octets
  rw [hrecords, recordsFrom]
  split
  · rename_i hskip
    rw [hkept] at hskip
    simp at hskip
  · rename_i begin octet tail hskip
    rw [hkept, Prod.mk.injEq, List.cons.injEq] at hskip
    obtain ⟨rfl, rfl, rfl⟩ := hskip
    exact ⟨_, _, rfl, first, rest, hfields, hfirst⟩

end Csv

namespace Utf8

theorem decodeFrom_isPrefix {position : Nat} {before chars : List Char} {octets : Bytes}
    (hdecode : decodeFrom position before octets = .ok chars) : before.reverse <+: chars := by
  induction position, before, octets using decodeFrom.induct with
  | case1 position before =>
      rw [decodeFrom, Except.ok.injEq] at hdecode
      exact hdecode ▸ List.prefix_refl _
  | case2 position before a tail hchar =>
      rw [decodeFrom] at hdecode
      split at hdecode <;> simp_all
  | case3 position before a tail c rest hchar hshort ih =>
      rw [decodeFrom] at hdecode
      split at hdecode
      · simp at hdecode
      · rename_i d other hother
        rw [hchar, Option.some.injEq, Prod.mk.injEq] at hother
        obtain ⟨rfl, rfl⟩ := hother
        have hprefix := ih hdecode
        rw [List.reverse_cons] at hprefix
        exact (List.prefix_append _ _).trans hprefix

theorem decode_of_brace {field : Bytes} {text : String} (hfield : [brace] <+: field)
    (hdecode : decode field = .ok text) : ∃ rest, text.toList = '\x7b' :: rest := by
  obtain ⟨tail, rfl⟩ := hfield
  obtain ⟨chars, hchars, rfl⟩ := map_eq_ok_iff.mp hdecode
  have hchar : decodeChar? (brace :: tail) = some ('\x7b', tail) := rfl
  rw [List.singleton_append, decodeFrom] at hchars
  split at hchars
  · simp at hchars
  · rename_i c rest hother
    rw [hchar, Option.some.injEq, Prod.mk.injEq] at hother
    obtain ⟨rfl, rfl⟩ := hother
    obtain ⟨others, rfl⟩ := decodeFrom_isPrefix hchars
    exact ⟨others, by rw [String.toList_ofList]; rfl⟩

end Utf8

theorem Instant.parse_of_brace {text : String} {rest : List Char}
    (htext : text.toList = '\x7b' :: rest) : Instant.parse text = .error .invalid := by
  rw [Instant.parse, htext]
  rfl

theorem Pickup.ofFields_of_brace {time : String} {rest : List Char}
    (htime : time.toList = '\x7b' :: rest) (others : List String) :
    ∃ fault, Pickup.ofFields (time :: others) = .error fault := by
  unfold Pickup.ofFields
  split
  · rename_i found geohash count location hfields
    rw [List.cons.injEq] at hfields
    obtain ⟨rfl, -⟩ := hfields
    rw [Instant.parse_of_brace htime]
    exact ⟨_, rfl⟩
  · exact ⟨_, rfl⟩

theorem Pickup.ofBytes_of_brace (octets : Bytes) :
    ∃ e, Pickup.ofBytes (brace :: octets) = .error e := by
  obtain ⟨record, others, hrecords, first, rest, hfields, hfirst⟩ := Csv.records_of_brace octets
  have hrecord : ∃ e, Pickup.ofRecord record = .error e := by
    rw [Pickup.ofRecord, hfields, Csv.texts]
    cases hdecode : Utf8.decode first with
    | error position => exact ⟨_, rfl⟩
    | ok text =>
        cases hothers : Csv.texts rest with
        | error position => exact ⟨_, rfl⟩
        | ok texts =>
            obtain ⟨chars, hchars⟩ := Utf8.decode_of_brace hfirst hdecode
            obtain ⟨fault, hfault⟩ := Pickup.ofFields_of_brace hchars texts
            exact ⟨.row record.place.line fault, by simp only [hfault]⟩
  obtain ⟨e, he⟩ := hrecord
  exact ⟨e, by rw [Pickup.ofBytes, hrecords, List.mapM_cons, he, error_bind]⟩

theorem ZoneSet.ofTable_of_nil {table : PickupTable} (htable : PickupTable.ofBytes [] = .ok table) :
    ZoneSet.ofTable table = .error .emptyTable := by
  have hpickups : Pickup.ofBytes [] = .ok [] := by
    simp [Pickup.ofBytes, Csv.records, Csv.recordsFrom, Csv.skipLineEnds]
  rw [PickupTable.ofBytes, hpickups, map_ok, Except.ok.injEq] at htable
  rw [← htable]
  simp [ZoneSet.ofTable, PickupTable.ofList]

theorem SeriesRecord.encode_brace (r : SeriesRecord) :
    ∃ octets, Utf8.encode r.encode = brace :: octets := by
  rw [Utf8.encode, SeriesRecord.encode, String.toList_ofList, SeriesRecord.toChars]
  exact ⟨_, rfl⟩

theorem DatasetFile.content_brace (categories : Bool) (series : List Series) :
    DatasetFile.content (recordLines categories series) = [] ∨
      ∃ octets, DatasetFile.content (recordLines categories series) = brace :: octets := by
  rw [DatasetFile.content, recordLines]
  cases seriesRecords categories series with
  | nil => exact .inl rfl
  | cons first others =>
      obtain ⟨octets, hfirst⟩ := first.encode_brace
      right
      rw [List.map_cons, List.flatMap_cons, hfirst]
      exact ⟨_, rfl⟩

/-- No content of which a dataset is built is that of one of its files. -/
theorem Split.ofContent_ne_fileBytes {content : Bytes} {step : Step} {policy : ResamplePolicy}
    {horizon : Nat} {result : Split × ResampleStats}
    (hcontent : Split.ofContent content step policy horizon = .ok result)
    (s : DatasetSettings) (split : Split) (half : Half) :
    content ≠ Pipeline.fileBytes s split half := by
  rintro rfl
  unfold Split.ofContent at hcontent
  obtain ⟨table, htable, hcontent⟩ := bind_eq_ok_iff.mp hcontent
  obtain ⟨zones, hzones, -⟩ := bind_eq_ok_iff.mp hcontent
  unfold Pipeline.fileBytes at htable
  rcases DatasetFile.content_brace s.categories (split.half half) with hnil | ⟨octets, hbrace⟩
  · rw [hnil] at htable
    rw [ZoneSet.ofTable_of_nil htable] at hzones
    contradiction
  · obtain ⟨e, he⟩ := Pickup.ofBytes_of_brace octets
    rw [hbrace, PickupTable.ofBytes, he] at htable
    contradiction

end ZoneDemand
