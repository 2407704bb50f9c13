import Cadence.Report

/-!
# The report in Markdown

Section 10.8 of the specification.
-/

namespace Cadence.Report

/-- The sign of a verdict. -/
def sign (passed : Bool) : String := if passed then "✅" else "❌"

/-- A row of a table. -/
def tableRow (cells : List String) : String :=
  "| " ++ " | ".intercalate cells ++ " |"

/-- Text that is shown as it is. -/
def code (text : String) : String := "`" ++ text ++ "`"

def thresholdRow (judgement : Judgement) : String :=
  tableRow [code judgement.metric, code judgement.predicate, observedText judgement.observed,
    sign judgement.passed]

def scenarioRow (report : Report) (stats : ScenarioStats) : String :=
  let p95 := match (report.summaryOf? stats.scenario).bind (·.p95) with
    | none => "-"
    | some millis => Decimal.fixed 2 millis ++ "ms"
  tableRow [stats.scenario, Decimal.plain stats.targetRate, Nat.repr stats.workers,
    Nat.repr stats.dispatched, Nat.repr stats.completed, Nat.repr stats.dropped,
    Nat.repr stats.abandoned, p95]

def markdownLines (report : Report) : List String :=
  ["# Load Run Report: " ++ report.runId.text, "",
    "**Status**: " ++ sign report.passed ++ " " ++ report.verdictWord] ++
  (match report.verdict.aborted with
    | none => []
    | some reason => ["", "**Aborted**: " ++ reason]) ++
  ["",
    "- **Started**: " ++ report.startedAt.text .offset,
    "- **Duration**: " ++ Decimal.fixed 1 report.elapsed ++ " seconds",
    "", "---", "",
    "## Thresholds", "",
    "| Metric | Predicate | Observed | Status |",
    "|--------|-----------|----------|--------|"] ++
  report.verdict.judgements.map thresholdRow ++
  ["", "---", "",
    "## Scenarios", "",
    "| Scenario | Rate (/s) | Workers | Dispatched | Completed | Dropped | Abandoned | P95 |",
    "|----------|-----------|---------|------------|-----------|---------|-----------|-----|"] ++
  report.scenarios.map (scenarioRow report)

/-- The report in Markdown. -/
def markdown (report : Report) : String := joinLines report.markdownLines

end Cadence.Report
