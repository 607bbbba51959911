import ZoneDemand.Proofs.Csv.Grammar
import ZoneDemand.Proofs.Csv.Rows

/-!
# The rows of a content

A content is laid out as rows with line ends passed over before them, and a byte-order mark
passed over at its start.  Every content is laid out in exactly one way, and its records are
these rows: each has the fields of its row and is reported at the place where the row before
it ends.
-/

namespace ZoneDemand
namespace Csv

/-- A row with the octets up to the end of the row before it, and those passed over since. -/
structure Row where
  before : Bytes
  skipped : Bytes
  fields : List Bytes

def lineFeed : UInt8 := '\n'.toUInt8

namespace Row

/-- The place from which the reading of the row sets out. -/
def place (row : Row) : Place := Place.start.afterAll row.before

/-- The line on which the row begins. -/
def line (row : Row) : Nat := 1 + (row.before ++ row.skipped).count lineFeed

def record (row : Row) (index : Nat) : Record := ⟨index, row.place, row.fields⟩

end Row

/-- The octets are laid out as these rows, after the octets up to the end of the row before
and those passed over since. -/
inductive Layout : Bytes → Bytes → Bytes → List Row → Prop where
  | done {before skipped : Bytes} : Layout before skipped [] []
  | skip {before skipped rest : Bytes} {rows : List Row} {octet : UInt8}
      (hend : isLineEnd octet = true) (hrest : Layout before (skipped ++ [octet]) rest rows) :
      Layout before skipped (octet :: rest) rows
  | row {before skipped octets rest : Bytes} {fields : List Bytes} {rows : List Row}
      {first : UInt8} (hfirst : isLineEnd first = false)
      (hrow : RowOctets (first :: octets) fields rest)
      (hrest : Layout (before ++ skipped ++ first :: octets) [] rest rows) :
      Layout before skipped (first :: octets ++ rest) (⟨before, skipped, fields⟩ :: rows)

theorem Layout.of_rowOctets {before skipped taken rest : Bytes} {fields : List Bytes}
    {rows : List Row} (hne : taken ≠ []) (hstarts : taken.head?.any isLineEnd = false)
    (hrow : RowOctets taken fields rest)
    (hrest : Layout (before ++ skipped ++ taken) [] rest rows) :
    Layout before skipped (taken ++ rest) (⟨before, skipped, fields⟩ :: rows) := by
  cases taken with
  | nil => exact absurd rfl hne
  | cons first octets => exact .row hstarts hrow hrest

def byteOrderMark : Bytes := [0xEF, 0xBB, 0xBF]

inductive LaidOut : Bytes → List Row → Prop where
  | marked {rest : Bytes} {rows : List Row} (hrest : Layout [] byteOrderMark rest rows) :
      LaidOut (byteOrderMark ++ rest) rows
  | unmarked {content : Bytes} {rows : List Row} (hmark : ¬byteOrderMark <+: content)
      (hcontent : Layout [] [] content rows) : LaidOut content rows

/-! ## Every content is laid out -/

theorem exists_layout (before skipped octets : Bytes) :
    ∃ rows, Layout before skipped octets rows := by
  -- A row leaves less of the content, so the induction is on the length.
  induction hlength : octets.length using Nat.strongRecOn generalizing before skipped octets with
  | ind n ih =>
      cases octets with
      | nil => exact ⟨[], .done⟩
      | cons first octets =>
          rw [List.length_cons] at hlength
          by_cases hend : isLineEnd first = true
          · obtain ⟨rows, hrows⟩ :=
              ih octets.length (by omega) before (skipped ++ [first]) octets rfl
            exact ⟨rows, .skip hend hrows⟩
          · obtain ⟨taken, fields, rest, hsplit, hrow⟩ := exists_rowOctets (first :: octets)
            cases taken with
            | nil =>
                rw [List.nil_append] at hsplit
                rw [← hsplit] at hrow
                exact absurd rfl hrow.ne_nil
            | cons octet taken =>
                obtain ⟨rfl, hoctets⟩ := List.cons.inj hsplit
                rw [hsplit]
                have hshort := congrArg List.length hoctets
                rw [List.append_eq, List.length_append] at hshort
                obtain ⟨rows, hrows⟩ := ih rest.length (by omega)
                  (before ++ skipped ++ first :: taken) [] rest rfl
                exact ⟨_, .row (Bool.eq_false_iff.mpr hend) hrow hrows⟩

theorem exists_laidOut (content : Bytes) : ∃ rows, LaidOut content rows := by
  by_cases hmark : byteOrderMark <+: content
  · obtain ⟨rest, rfl⟩ := hmark
    obtain ⟨rows, hrows⟩ := exists_layout [] byteOrderMark rest
    exact ⟨rows, .marked hrows⟩
  · obtain ⟨rows, hrows⟩ := exists_layout [] [] content
    exact ⟨rows, .unmarked hmark hrows⟩

/-! ## In one way only -/

theorem RowOctets.unique {octets others rest after : Bytes} {fields values : List Bytes}
    (hrow : RowOctets octets fields rest) (hother : RowOctets others values after)
    (hsame : octets ++ rest = others ++ after) :
    octets = others ∧ fields = values ∧ rest = after := by
  have hscan := scanFields_rowOctets hrow Place.start
  rw [hsame, scanFields_rowOctets hother Place.start, Prod.mk.injEq, Prod.mk.injEq] at hscan
  obtain ⟨rfl, -, rfl⟩ := hscan
  exact ⟨List.append_cancel_right hsame, rfl, rfl⟩

theorem Layout.unique {before skipped octets : Bytes} {rows others : List Row}
    (h : Layout before skipped octets rows) (hother : Layout before skipped octets others) :
    rows = others := by
  induction h generalizing others with
  | done =>
      cases hother with
      | done => rfl
  | skip hend _ ih =>
      cases hother with
      | skip _ hrest => exact ih hrest
      | row hfirst => simp [hend] at hfirst
  | @row before skipped octets rest fields rows first hfirst hrow _ ih =>
      generalize hwhole : first :: octets ++ rest = whole at hother
      cases hother with
      | done => simp at hwhole
      | skip hend =>
          obtain ⟨rfl, -⟩ := List.cons.inj hwhole
          simp [hend] at hfirst
      | row _ hrow' hrest =>
          obtain ⟨hoctets, rfl, rfl⟩ := hrow.unique hrow' hwhole
          rw [← hoctets] at hrest
          rw [ih hrest]

theorem LaidOut.unique {content : Bytes} {rows others : List Row} (h : LaidOut content rows)
    (hother : LaidOut content others) : rows = others := by
  cases h with
  | @marked rest rows hrest =>
      generalize hcontent : byteOrderMark ++ rest = content at hother
      cases hother with
      | marked hrest' =>
          obtain rfl := List.append_cancel_left hcontent
          exact hrest.unique hrest'
      | unmarked hmark => exact absurd ⟨rest, hcontent⟩ hmark
  | unmarked hmark hcontent =>
      cases hother with
      | marked => exact absurd (List.prefix_append _ _) hmark
      | unmarked _ hcontent' => exact hcontent.unique hcontent'

/-! ## Where a row begins -/

theorem Layout.begins {before skipped octets : Bytes} {rows : List Row}
    (h : Layout before skipped octets rows) {row : Row} (hrow : row ∈ rows) :
    ∃ first rest, isLineEnd first = false ∧
      before ++ skipped ++ octets = row.before ++ row.skipped ++ first :: rest := by
  induction h with
  | done => simp at hrow
  | skip _ _ ih =>
      obtain ⟨first, rest, hfirst, hwhole⟩ := ih hrow
      refine ⟨first, rest, hfirst, ?_⟩
      rw [← hwhole]
      simp
  | @row before skipped octets rest fields rows first hfirst _ _ ih =>
      rcases List.mem_cons.mp hrow with rfl | hrow
      · exact ⟨first, octets ++ rest, hfirst, rfl⟩
      · obtain ⟨octet, after, hoctet, hwhole⟩ := ih hrow
        refine ⟨octet, after, hoctet, ?_⟩
        rw [← hwhole]
        simp

/-- A row begins with its first octet, behind what was passed over before it. -/
theorem LaidOut.begins {content : Bytes} {rows : List Row} (h : LaidOut content rows) {row : Row}
    (hrow : row ∈ rows) :
    ∃ first rest, isLineEnd first = false ∧
      content = row.before ++ row.skipped ++ first :: rest := by
  cases h with
  | marked hrest => exact hrest.begins hrow
  | unmarked _ hcontent => exact hcontent.begins hrow

theorem Place.line_afterAll (place : Place) (octets : Bytes) :
    (place.afterAll octets).line = place.line + octets.count lineFeed := by
  induction octets generalizing place with
  | nil => rfl
  | cons octet octets ih =>
      rw [Place.afterAll_cons, ih, List.count_cons]
      by_cases hfeed : octet = lineFeed
      · have hline : (place.advance octet).line = place.line + 1 := if_pos hfeed
        rw [hline, if_pos (beq_iff_eq.mpr hfeed)]
        omega
      · have hline : (place.advance octet).line = place.line := if_neg hfeed
        simp [hline, hfeed]

/-- Line feeds passed over before a row are missing in the line of its place. -/
theorem Row.line_eq (row : Row) : row.line = row.place.line + row.skipped.count lineFeed := by
  rw [line, place, Place.line_afterAll, List.count_append]
  exact (Nat.add_assoc _ _ _).symm

/-! ## Records are rows -/

theorem recordsFrom_row (index : Nat) (reported place : Place) {first : UInt8}
    {octets rest : Bytes} {fields : List Bytes} (hfirst : isLineEnd first = false)
    (hrow : RowOctets (first :: octets) fields rest) :
    recordsFrom index reported place (first :: octets ++ rest) =
      ⟨index, reported, fields⟩ ::
        recordsFrom (index + 1) (place.afterAll (first :: octets))
          (place.afterAll (first :: octets)) rest := by
  exact recordsFrom_of_some _ _ _ (skipLineEnds_of_content place hfirst _)
    (scanFields_rowOctets hrow place)

theorem recordsFrom_of_layout {before skipped octets : Bytes} {rows : List Row}
    (h : Layout before skipped octets rows) (index : Nat) :
    recordsFrom index (Place.start.afterAll before) (Place.start.afterAll (before ++ skipped))
        octets =
      rows.mapIdx fun i row => row.record (index + i) := by
  induction h generalizing index with
  | done => exact recordsFrom_of_none _ _ _ rfl
  | skip hend _ ih =>
      rw [recordsFrom_skip _ _ _ hend, ← ih, ← List.append_assoc, Place.afterAll_append _ _ [_]]
      rfl
  | row hfirst hrow _ ih =>
      rw [recordsFrom_row _ _ _ hfirst hrow, ← Place.afterAll_append, List.mapIdx_cons]
      have hrest := ih (index + 1)
      rw [List.append_nil] at hrest
      rw [hrest]
      simp only [Row.record, Row.place, Nat.add_zero, Nat.add_assoc, Nat.add_comm 1]

theorem records_of_laidOut {content : Bytes} {rows : List Row} (h : LaidOut content rows) :
    records content = rows.mapIdx fun i row => row.record i := by
  cases h with
  | marked hrest =>
      have hrecords := recordsFrom_of_layout hrest 0
      simp only [Nat.zero_add] at hrecords
      exact hrecords
  | unmarked hmark hcontent =>
      have hrecords := recordsFrom_of_layout hcontent 0
      simp only [Nat.zero_add] at hrecords
      unfold records
      split
      · rename_i rest
        exact absurd (List.prefix_append byteOrderMark rest) hmark
      · exact hrecords

end Csv
end ZoneDemand
