/-!
# Steps

The length of an interval, a signed duration in milliseconds that fits 64 bits.
Only its whole seconds enter any computation.
-/

namespace ZoneDemand

structure Step where
  millis : Int
  bounded : -9223372036854775807 ≤ millis ∧ millis ≤ 9223372036854775807
deriving DecidableEq

namespace Step

def ofMillis? (millis : Int) : Option Step :=
  if h : -9223372036854775807 ≤ millis ∧ millis ≤ 9223372036854775807 then
    some ⟨millis, h⟩
  else none

def ofSeconds? (seconds : Int) : Option Step := ofMillis? (1000 * seconds)

/-- The whole seconds of the step, the fraction being cut off. -/
def seconds (step : Step) : Int := step.millis.tdiv 1000

end Step
end ZoneDemand
