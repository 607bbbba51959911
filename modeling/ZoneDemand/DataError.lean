import ZoneDemand.Csv
import ZoneDemand.FileTree.Fault
import ZoneDemand.Instant.Text
import ZoneDemand.Text.Quoted

/-!
# Errors of the data transforms

Everything that stops the way from staged records to dataset files, with the
text by which it is reported.
-/

namespace ZoneDemand

/-- What is wrong with one record of the staged file. -/
inductive RowFault where
  | columns (fields : List String)
  | time (text : String) (cause : TimestampError)
  | count (text : String) (cause : UnsignedError)
deriving DecidableEq, Repr

namespace RowFault

def column : RowFault → String
  | .columns _ => "record"
  | .time .. => "timestamp"
  | .count .. => "pickup_count"

def value : RowFault → String
  | .columns fields => ",".intercalate fields
  | .time text _ => text
  | .count text _ => text

def reason : RowFault → String
  | .columns fields => s!"expected 4 columns, found {fields.length}"
  | .time _ cause => cause.message
  | .count _ cause => cause.message

end RowFault

inductive DataError where
  /-- A field of a record is not UTF-8 after its first `position` octets. -/
  | encoding (record : Nat) (place : Csv.Place) (field position : Nat)
  /-- The staged file was opened and could not be read. -/
  | reading (cause : FileFault)
  | row (line : Nat) (fault : RowFault)
  | emptyTable
  | step (seconds : Int)
  | tooShort (geohash : String) (intervals horizon : Nat)
  | file (path : String) (cause : FileFault)
deriving DecidableEq, Repr

def DataError.message : DataError → String
  | .encoding record place field position =>
      s!"Failed to read staged records: CSV parse error: record {record} (line {place.line}, " ++
        s!"field: {field}, byte: {place.offset}): invalid utf-8: invalid UTF-8 in field {field} " ++
        s!"near byte index {position}"
  | .reading cause => s!"Failed to read staged records: {cause.message}"
  | .row line fault =>
      s!"Parse error on line {line}, column '{fault.column}': {fault.reason} " ++
        s!"(value: {quoted fault.value})"
  | .emptyTable => "Event table is empty; cannot compute a global time range"
  | .step seconds => s!"Resample step must be positive, got {seconds}s"
  | .tooShort geohash intervals horizon =>
      s!"Series for '{geohash}' has {intervals} intervals, " ++
        s!"needs more than prediction_length={horizon}"
  | .file path cause => s!"Failed to write '{path}': {cause.message}"

end ZoneDemand
