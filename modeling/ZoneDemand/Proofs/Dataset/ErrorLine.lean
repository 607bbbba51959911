import Mathlib.Data.List.Basic
import ZoneDemand.Proofs.Dataset.Loading
import ZoneDemand.Proofs.Instant.Order

/-!
# The line of an error

What is wrong with a row is reported with the line that was reached at the end of the row before
it.  Line feeds that are passed over between the two, of blank lines or behind a carriage
return, do not count, so the line is the one on which the row begins only where there are none.
-/

namespace ZoneDemand

theorem Csv.Row.FailsWith.line_eq {row : Csv.Row} {index line : Nat} {fault : RowFault}
    (h : row.FailsWith index (.row line fault)) : line = row.place.line := by
  cases h <;> rfl

/-- The line of an error is that of the row, less the line feeds passed over before the row. -/
theorem PickupTable.ofBytes_error_line {content : Bytes} {line : Nat} {fault : RowFault}
    (herror : ofBytes content = .error (.row line fault)) :
    ∃ before row after, Csv.LaidOut content (before ++ row :: after) ∧
      (∀ r ∈ before, ∃ pickup, r.Says pickup) ∧
      row.FailsWith before.length (.row line fault) ∧
      (∃ first rest, Csv.isLineEnd first = false ∧
        content = row.before ++ row.skipped ++ first :: rest) ∧
      row.line = line + row.skipped.count Csv.lineFeed ∧
      (line = row.line ↔ Csv.lineFeed ∉ row.skipped) := by
  obtain ⟨rows, hrows⟩ := Csv.exists_laidOut content
  obtain ⟨before, row, after, rfl, hbefore, hfails⟩ := failsWith_of_ofBytes hrows herror
  have hline : row.line = line + row.skipped.count Csv.lineFeed := by
    rw [row.line_eq, hfails.line_eq]
  refine ⟨before, row, after, hrows, hbefore, hfails, hrows.begins (by simp), hline, ?_⟩
  rw [hline, ← List.count_eq_zero]
  omega

/-- The second row follows a line feed within the first one and another that closes it. -/
theorem quotedRow_error_line :
    ∃ before row after,
      Csv.LaidOut (Utf8.encode "2021-12-13 00:00:00,a,1,\"x\ny\"\nb\n") (before ++ row :: after) ∧
      (∀ r ∈ before, ∃ pickup, r.Says pickup) ∧
      row.FailsWith before.length (.row 3 (.columns ["b"])) ∧
      (∃ first rest, Csv.isLineEnd first = false ∧
        Utf8.encode "2021-12-13 00:00:00,a,1,\"x\ny\"\nb\n" =
          row.before ++ row.skipped ++ first :: rest) ∧
      row.line = 3 + row.skipped.count Csv.lineFeed ∧
      (3 = row.line ↔ Csv.lineFeed ∉ row.skipped) := by
  have herror : PickupTable.ofBytes (Utf8.encode "2021-12-13 00:00:00,a,1,\"x\ny\"\nb\n") =
      .error (.row 3 (.columns ["b"])) := map_eq_error_iff.mpr (by decide +kernel)
  exact PickupTable.ofBytes_error_line herror

/-! ## Lines that end in a carriage return and a line feed -/

def carriageContent : Bytes := Utf8.encode "2021-12-13 00:00:00,a,1,x\r\nb\r\n"

def goodLine : Bytes := Utf8.encode "2021-12-13 00:00:00,a,1,x\r"

def badLine : Bytes := Utf8.encode "b\r"

def goodRow : Csv.Row := ⟨[], [], ["2021-12-13 00:00:00", "a", "1", "x"].map Utf8.encode⟩

/-- The line feed behind the carriage return is passed over before the row. -/
def badRow : Csv.Row := ⟨goodLine, [Csv.lineFeed], ["b"].map Utf8.encode⟩

theorem Csv.FieldText.of_raw {text : Bytes} (htext : Csv.Raw text) : Csv.FieldText text text :=
  .intro .none htext

theorem rowOctets_goodLine (rest : Bytes) : Csv.RowOctets goodLine goodRow.fields rest := by
  have hfield : ∀ text ∈ goodRow.fields, Csv.FieldText text text := by
    intro text htext
    have hraw : ∀ text ∈ goodRow.fields,
        (∀ octet ∈ text, octet ≠ Csv.comma ∧ Csv.isLineEnd octet = false) ∧
          text.head? ≠ some Csv.quoteMark := by decide +kernel
    exact .of_raw ⟨(hraw text htext).1, (hraw text htext).2⟩
  have htext := Csv.RowText.cons (hfield (Utf8.encode "2021-12-13 00:00:00") (by simp [goodRow]))
    (.cons (hfield (Utf8.encode "a") (by simp [goodRow]))
      (.cons (hfield (Utf8.encode "1") (by simp [goodRow]))
        (.single (hfield (Utf8.encode "x") (by simp [goodRow])))))
  exact .closed htext (rfl : Csv.isLineEnd 13 = true)

theorem laidOut_carriageContent : Csv.LaidOut carriageContent [goodRow, badRow] := by
  have hcontent : carriageContent =
      goodLine ++ Csv.lineFeed :: (badLine ++ [Csv.lineFeed]) := by rfl
  have hraw : Csv.Raw (Utf8.encode "b") := ⟨by decide +kernel, by decide⟩
  have hbad : Csv.RowOctets badLine badRow.fields [Csv.lineFeed] :=
    .closed (.single (.of_raw hraw)) (rfl : Csv.isLineEnd 13 = true)
  have hrest : Csv.Layout goodLine [] (Csv.lineFeed :: (badLine ++ [Csv.lineFeed])) [badRow] :=
    .skip rfl (.of_rowOctets (by decide) rfl hbad (.skip rfl .done))
  rw [hcontent]
  exact .unmarked (by decide) (.of_rowOctets (by decide) rfl (rowOctets_goodLine _) hrest)

/-- The row on the second line is reported on the first. -/
theorem carriageContent_error_line :
    PickupTable.ofBytes carriageContent = .error (.row 1 (.columns ["b"])) ∧
    Csv.LaidOut carriageContent [goodRow, badRow] ∧
    goodRow.Says ⟨midnight, "a", 1, "x"⟩ ∧ badRow.FailsWith 1 (.row 1 (.columns ["b"])) ∧
    badRow.line = 2 := by
  have herror : PickupTable.ofBytes carriageContent = .error (.row 1 (.columns ["b"])) :=
    map_eq_error_iff.mpr (by decide +kernel)
  have hgood : Pickup.ofRecord (goodRow.record 0) = .ok ⟨midnight, "a", 1, "x"⟩ := by
    decide +kernel
  have hbad : Pickup.ofRecord (badRow.record 1) = .error (.row 1 (.columns ["b"])) := by
    decide +kernel
  exact ⟨herror, laidOut_carriageContent, Pickup.ofRecord_eq_ok_iff_says.mp hgood,
    Pickup.failsWith_of_ofRecord hbad, by decide⟩

end ZoneDemand
