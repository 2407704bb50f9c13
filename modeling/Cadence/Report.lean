import Cadence.Ledger
import Cadence.Moment
import Cadence.RunId

/-!
# Reports

Everything that a finished run reports.

Section 10.8 of the specification.
-/

namespace Cadence

/-- The final accounting of one scenario. -/
structure ScenarioStats where
  scenario : String
  targetRate : Float
  workers : Nat
  dispatched : Nat
  completed : Nat
  dropped : Nat
  abandoned : Nat
  deriving Repr

structure Report where
  runId : RunId
  startedAt : Moment
  /-- Seconds from the start until the last scenario had ended. -/
  elapsed : Float
  verdict : Verdict
  scenarios : List ScenarioStats
  summaries : List Summary
  deriving Repr

namespace Report

def passed (report : Report) : Bool := report.verdict.passed

/-- Arrivals that found no free worker, over all scenarios. -/
def totalDropped (report : Report) : Nat := (report.scenarios.map (·.dropped)).foldr (· + ·) 0

/-- The figures of a scenario, if anything was recorded for it. -/
def summaryOf? (report : Report) (scenario : String) : Option Summary :=
  report.summaries.find? fun summary => summary.scenario == scenario

/-- The word for the verdict. -/
def verdictWord (report : Report) : String :=
  if report.passed then "PASSED" else "FAILED"

/-- A number without a fraction. -/
def isWhole (x : Float) : Bool :=
  match x.toModel.unpack with
  | .zero _ => true
  | .finite _ m e _ => m % Decimal.powerBelow 2 e == 0
  | _ => false

/-- An observed value: whole numbers below `10 ^ 15` without places, all others with four. -/
def observedText : Option Float → String
  | none => "no data"
  | some x => if isWhole x && x.abs < 1e15 then Decimal.fixed 0 x else Decimal.fixed 4 x

/-- Every line is closed by a line break. -/
def joinLines (lines : List String) : String := String.join (lines.map (· ++ "\n"))

end Report

end Cadence
