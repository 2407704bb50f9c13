import Cadence.Duration
import Cadence.Fault

/-!
# Pace

The time between two arrivals at a given rate.

Section 4.4 of the specification, and section 10.4 for the bounds on rates.
-/

namespace Cadence.Pace

/-- Whether the pacing clock can hold a rate. -/
def inRange (rate : Float) : Bool := minRate ≤ rate && rate ≤ maxRate

/-- The time between two arrivals at a rate per second (4.4). -/
def period (rate : Float) : Except Fault Duration :=
  if inRange rate then
    match Duration.ofSeconds? (1 / rate) with
    | .ok time => .ok time
    | .error fault => .error (.invalid (.ratePeriod rate fault))
  else .error (.invalid (.rate rate))

end Cadence.Pace
