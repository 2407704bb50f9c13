import Cadence.Duration

/-!
# Observations

What an iteration observes: checks (assertions that held or did not) and samples (timed requests).

Section 3 of the specification.
-/

namespace Cadence

/-- One assertion made during an iteration. -/
structure Check where
  scenario : String
  name : String
  passed : Bool
  deriving Repr, DecidableEq

/-- One request made during an iteration. -/
structure Sample where
  scenario : String
  name : String
  duration : Duration
  /-- No answer, or an answer with an unexpected status. -/
  failed : Bool
  status : Option Nat
  deriving Repr, DecidableEq

/-- Everything that a completed iteration reports. -/
structure Outcome where
  checks : List Check
  samples : List Sample
  deriving Repr, DecidableEq, Inhabited

end Cadence
