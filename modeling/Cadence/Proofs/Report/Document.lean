import Cadence.Proofs.Json.Document
import Cadence.Report.Document

/-!
# The report as a document read back

The JSON text of a report is read back as its document. Counts are words of 64 bits; whole numbers
that do not fit such a word would be read as numbers in floating point.
-/

namespace Cadence

namespace Json

/-- The value of a field. -/
def field? (name : String) : Json → Option Json
  | .obj fields => fields.lookup name
  | _ => none

variable {depth : Nat}

theorem readable_nat {n : Nat} (fits : n < UInt64.size) : Readable depth (nat n) :=
  .int ((by decide : Int64.minValue.toInt ≤ 0).trans (Int.natCast_nonneg n)) (by exact_mod_cast fits)

theorem readable_optional {α : Type} {f : α → Json} (each : ∀ x, Readable depth (f x)) :
    ∀ x, Readable depth (optional f x)
  | none => .null
  | some x => each x

end Json

open Json

/-- The counts of a scenario fit 64 bits. -/
structure ScenarioStats.CountsFit (stats : ScenarioStats) : Prop where
  workers : stats.workers < UInt64.size
  dispatched : stats.dispatched < UInt64.size
  completed : stats.completed < UInt64.size
  dropped : stats.dropped < UInt64.size
  abandoned : stats.abandoned < UInt64.size

/-- The counts of a summary fit 64 bits. -/
structure Summary.CountsFit (summary : Summary) : Prop where
  iterations : summary.iterations < UInt64.size
  droppedIterations : summary.droppedIterations < UInt64.size
  requests : summary.requests < UInt64.size
  failedRequests : summary.failedRequests < UInt64.size
  checksPassed : summary.checksPassed < UInt64.size
  checksTotal : summary.checksTotal < UInt64.size

namespace Report

/-- All counts of a report fit 64 bits. -/
structure CountsFit (report : Report) : Prop where
  scenarios : ∀ stats ∈ report.scenarios, stats.CountsFit
  summaries : ∀ summary ∈ report.summaries, summary.CountsFit

variable {depth : Nat}

theorem readable_judgementJson (judgement : Judgement) :
    Readable (depth + 1) (judgementJson judgement) := by
  refine .obj ?_
  simp only [List.forall_mem_cons]
  exact ⟨.str _, .str _, readable_optional .float _, .bool _, by simp⟩

theorem readable_verdictJson (verdict : Verdict) :
    Readable (depth + 3) (verdictJson verdict) := by
  refine .obj ?_
  simp only [List.forall_mem_cons]
  refine ⟨.arr ?_, .bool _, readable_optional .str _, by simp⟩
  rw [List.forall_mem_map]
  exact fun judgement _ => readable_judgementJson judgement

theorem readable_statsJson {stats : ScenarioStats} (fits : stats.CountsFit) :
    Readable (depth + 1) (statsJson stats) := by
  refine .obj ?_
  simp only [List.forall_mem_cons]
  exact ⟨.str _, .float _, readable_nat fits.workers, readable_nat fits.dispatched,
    readable_nat fits.completed, readable_nat fits.dropped, readable_nat fits.abandoned, by simp⟩

theorem readable_summaryJson {summary : Summary} (fits : summary.CountsFit) :
    Readable (depth + 1) (summaryJson summary) := by
  refine .obj ?_
  simp only [List.forall_mem_cons]
  exact ⟨.str _, readable_nat fits.iterations, readable_nat fits.droppedIterations,
    readable_nat fits.requests, readable_nat fits.failedRequests, readable_nat fits.checksPassed,
    readable_nat fits.checksTotal, readable_optional .float _, by simp⟩

theorem readable_document {report : Report} (fits : report.CountsFit) :
    Readable (depth + 4) report.document := by
  refine .obj ?_
  simp only [List.forall_mem_cons]
  refine ⟨.str _, .str _, .float _, readable_verdictJson _, .arr ?_, .arr ?_, by simp⟩
  · rw [List.forall_mem_map]
    exact fun stats member => readable_statsJson (fits.scenarios stats member)
  · rw [List.forall_mem_map]
    exact fun summary member => readable_summaryJson (fits.summaries summary member)

/-- The JSON text of a report is read back as its document. -/
theorem parse?_json {report : Report} (fits : report.CountsFit) :
    parse? exactNumber report.json = some report.document.readBack :=
  parse?_text (readable_document fits)

end Report

end Cadence
