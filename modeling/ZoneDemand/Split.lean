import ZoneDemand.DataError
import ZoneDemand.Series

/-!
# Training and test data

The test data are the series as they are; the training data are the same series
without the last `horizon` intervals, which a forecast is measured on.
-/

namespace ZoneDemand

inductive Half where
  | train
  | test
deriving DecidableEq, Repr

def Half.name : Half → String
  | .train => "train"
  | .test => "test"

structure Split where
  train : List Series
  test : List Series
  horizon : Nat
deriving DecidableEq

namespace Split

/-- Fails on the first series that would lose all its intervals. -/
def ofSeries (series : List Series) (horizon : Nat) : Except DataError Split :=
  match series.find? fun s => s.size ≤ horizon with
  | some short => .error (.tooShort short.geohash short.size horizon)
  | none => .ok ⟨series.map (·.withoutTail horizon), series, horizon⟩

def half (split : Split) : Half → List Series
  | .train => split.train
  | .test => split.test

end Split
end ZoneDemand
