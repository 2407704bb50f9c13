import Cadence.Report

/-!
# The report for the terminal

Sections 7 and 10.8 of the specification.
-/

namespace Cadence.Report

/-- The mark in front of a threshold. -/
def mark (passed : Bool) : String := if passed then "✓" else "✗"

def thresholdLine (judgement : Judgement) : String :=
  "  " ++ mark judgement.passed ++ " " ++ judgement.metric ++ ": " ++ judgement.predicate ++
    " (observed " ++ observedText judgement.observed ++ ")"

/-- The line of a scenario; its checks are those that were recorded under its name. -/
def scenarioLine (stats : ScenarioStats) (summary : Option Summary) : String :=
  let checks := match summary with
    | none => "0/0"
    | some summary => Nat.repr summary.checksPassed ++ "/" ++ Nat.repr summary.checksTotal
  "  " ++ stats.scenario ++ ": rate " ++ Decimal.plain stats.targetRate ++ "/s, " ++
    Nat.repr stats.workers ++ " workers, " ++ Nat.repr stats.dispatched ++ " dispatched, " ++
    Nat.repr stats.completed ++ " completed, checks " ++ checks

/-- The lines of a scenario; losses are shown only where there are some. -/
def scenarioLines (report : Report) (stats : ScenarioStats) : List String :=
  [scenarioLine stats (report.summaryOf? stats.scenario)] ++
    (if 0 < stats.dropped then ["    dropped arrivals: " ++ Nat.repr stats.dropped] else []) ++
    (if 0 < stats.abandoned then ["    abandoned iterations: " ++ Nat.repr stats.abandoned] else [])

def textLines (report : Report) : List String :=
  ["run " ++ report.runId.text ++ " (" ++ Decimal.fixed 1 report.elapsed ++ "s)", "",
    "thresholds:"] ++
  report.verdict.judgements.map thresholdLine ++
  ["", "scenarios:"] ++
  report.scenarios.flatMap (scenarioLines report) ++
  [""] ++
  (match report.verdict.aborted with
    | none => []
    | some reason => ["aborted: " ++ reason]) ++
  ["result: " ++ report.verdictWord]

/-- The report for the terminal. -/
def text (report : Report) : String := joinLines report.textLines

end Cadence.Report
