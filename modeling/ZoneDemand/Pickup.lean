import ZoneDemand.DataError

/-!
# Pickups

A pickup record counts the pickups in one geohash zone during the window that
ends at a given time.  The staged file holds one record per row in the columns
`timestamp,geohash,pickup_count,location`, where the location is the centre of
the zone.
-/

namespace ZoneDemand

structure Pickup where
  time : Instant
  geohash : String
  count : UInt64
  location : String
deriving DecidableEq

namespace Pickup

/-- Pickups are sorted by time, then by geohash. -/
protected def le (a b : Pickup) : Bool :=
  a.time < b.time || (a.time = b.time && a.geohash ≤ b.geohash)

theorem le_total (a b : Pickup) : (a.le b || b.le a) = true := by
  have hname := String.le_total a.geohash b.geohash
  by_cases heq : a.time = b.time
  · simp [Pickup.le, heq]
    grind
  · have hrank : a.time.rank ≠ b.time.rank := fun h => heq (Instant.rank_injective h)
    have hlt : a.time < b.time ∨ b.time < a.time := by
      change a.time.rank < b.time.rank ∨ b.time.rank < a.time.rank
      omega
    rcases hlt with h | h <;> simp [Pickup.le, h]

theorem le_trans (a b c : Pickup) (hab : a.le b = true) (hbc : b.le c = true) :
    a.le c = true := by
  simp only [Pickup.le, Bool.or_eq_true, decide_eq_true_eq, Bool.and_eq_true] at *
  have trans : ∀ {x y z : Instant}, x < y → y < z → x < z := by
    intro x y z hxy hyz
    exact Int.lt_trans hxy hyz
  rcases hab with hab | ⟨hab, hab'⟩ <;> rcases hbc with hbc | ⟨hbc, hbc'⟩
  · exact .inl (trans hab hbc)
  · exact .inl (hbc ▸ hab)
  · exact .inl (hab ▸ hbc)
  · exact .inr ⟨hab.trans hbc, String.le_trans hab' hbc'⟩

def ofFields (fields : List String) : Except RowFault Pickup :=
  match fields with
  | [time, geohash, count, location] =>
      match Instant.parse time with
      | .error cause => .error (.time time cause)
      | .ok t =>
          match parseCount count with
          | .error cause => .error (.count count cause)
          | .ok n => .ok ⟨t, geohash, n, location⟩
  | _ => .error (.columns fields)

def ofRecord (record : Csv.Record) : Except DataError Pickup :=
  match Csv.texts record.fields with
  | .error (field, position) => .error (.encoding record.index record.place field position)
  | .ok fields =>
      match ofFields fields with
      | .error fault => .error (.row record.place.line fault)
      | .ok pickup => .ok pickup

/-- The pickups of a staged file in file order; the first bad record decides the
error. -/
def ofBytes (content : Bytes) : Except DataError (List Pickup) :=
  (Csv.records content).mapM ofRecord

end Pickup
end ZoneDemand
