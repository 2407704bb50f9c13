import Cadence.Json.Printer
import Cadence.Report

/-!
# The report as a JSON document

Section 10.8 of the specification.
-/

namespace Cadence.Report

open Json in
def judgementJson (judgement : Judgement) : Json :=
  .obj [("metric", .str judgement.metric), ("predicate", .str judgement.predicate),
    ("observed", optional .float judgement.observed), ("passed", .bool judgement.passed)]

open Json in
def verdictJson (verdict : Verdict) : Json :=
  .obj [("thresholds", .arr (verdict.judgements.map judgementJson)),
    ("overall_passed", .bool verdict.passed), ("aborted", optional .str verdict.aborted)]

open Json in
def statsJson (stats : ScenarioStats) : Json :=
  .obj [("scenario", .str stats.scenario), ("target_rate", .float stats.targetRate),
    ("workers", nat stats.workers), ("dispatched", nat stats.dispatched),
    ("completed", nat stats.completed), ("dropped", nat stats.dropped),
    ("abandoned", nat stats.abandoned)]

open Json in
def summaryJson (summary : Summary) : Json :=
  .obj [("scenario", .str summary.scenario), ("iterations", nat summary.iterations),
    ("dropped_iterations", nat summary.droppedIterations), ("requests", nat summary.requests),
    ("failed_requests", nat summary.failedRequests), ("checks_passed", nat summary.checksPassed),
    ("checks_total", nat summary.checksTotal), ("p95_ms", optional .float summary.p95)]

/-- The report as a JSON value. -/
def document (report : Report) : Json :=
  .obj [("run_id", .str report.runId.text), ("started_at", .str (report.startedAt.text .zulu)),
    ("elapsed_secs", .float report.elapsed), ("result", verdictJson report.verdict),
    ("scenarios", .arr (report.scenarios.map statsJson)),
    ("summaries", .arr (report.summaries.map summaryJson))]

/-- The report as a JSON text. -/
def json (report : Report) : String := report.document.text

end Cadence.Report
