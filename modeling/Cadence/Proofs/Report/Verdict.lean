import Cadence.Proofs.Report.Document
import Cadence.Proofs.Report.Text
import Cadence.Report.Markdown

/-!
# The formats of a report agree on the verdict

The last line of the text, the status line of the Markdown and a field of the JSON document state
the verdict of the report, whatever its other texts hold.
-/

namespace Cadence.Report

/-- The lines of a text, each of which is closed by a line break. -/
def linesOf (text : String) : List String :=
  ((text.toList.splitOn '\n').map String.ofList).dropLast

/-- The lines that one of the joined lines becomes: several if it has line breaks itself. -/
def pieces (line : String) : List String := (line.toList.splitOn '\n').map String.ofList

theorem pieces_eq_self {line : String} (single : '\n' ∉ line.toList) : pieces line = [line] := by
  rw [pieces, List.splitOn_eq_singleton single, List.map_singleton, String.ofList_toList]

theorem linesOf_joinLines (lines : List String) : linesOf (joinLines lines) = lines.flatMap pieces := by
  unfold linesOf
  rw [toList_joinLines]
  induction lines with
  | nil => rfl
  | cons line lines ih =>
    have others : ((lines.flatMap fun line => line.toList ++ ['\n']).splitOn '\n').map
        String.ofList ≠ [] := by simp [List.splitOn_ne_nil]
    rw [List.flatMap_cons, List.append_assoc, List.singleton_append,
      List.splitOn_append_cons_self, List.map_append, List.dropLast_append_of_ne_nil others, ih]
    rfl

/-- What a JSON document says about the verdict of a report. -/
def overallPassed? (document : Json) : Option Bool := do
  let result ← document.field? "result"
  match ← result.field? "overall_passed" with
  | .bool passed => some passed
  | _ => none

/-- A report whose three formats state the same verdict. -/
structure StatesVerdict (report : Report) : Prop where
  text : (linesOf report.text).getLast? = some ("result: " ++ report.verdictWord)
  markdown : (linesOf report.markdown)[2]? =
    some ("**Status**: " ++ sign report.passed ++ " " ++ report.verdictWord)
  document : overallPassed? report.document = some report.passed
  /-- The text of the document is read back as one that says the same. -/
  json : report.CountsFit →
    (Json.parse? Json.exactNumber report.json).bind overallPassed? = some report.passed

theorem statesVerdict (report : Report) : StatesVerdict report where
  text := by
    have single : '\n' ∉ ("result: " ++ report.verdictWord).toList := by
      simp [break_notMem_verdictWord]
    rw [Report.text, linesOf_joinLines, textLines, List.flatMap_append, List.flatMap_singleton,
      pieces_eq_self single, List.getLast?_concat]
  markdown := by
    have title : '\n' ∉ ("# Load Run Report: " ++ report.runId.text).toList := by
      simp [RunId.break_notMem_text]
    have signed : '\n' ∉ (sign report.passed).toList := by
      unfold sign
      split <;> decide
    have status : '\n' ∉
        ("**Status**: " ++ sign report.passed ++ " " ++ report.verdictWord).toList := by
      simp [signed, break_notMem_verdictWord]
    have empty : '\n' ∉ "".toList := by simp
    rw [Report.markdown, linesOf_joinLines, markdownLines]
    simp only [List.cons_append, List.nil_append, List.flatMap_cons, pieces_eq_self title,
      pieces_eq_self status, pieces_eq_self empty]
    rfl
  document := rfl
  json := by
    intro fits
    rw [parse?_json fits]
    rfl

/-- Reports about the same scenarios and thresholds have the same text only if they agree on their
verdict, the reason of an early stop, the marks of the thresholds and the counts of the scenarios;
and every format of a report states its verdict. -/
theorem renderings_tell :
    (∀ report other : Report, report.SingleLines → other.SingleLines →
      report.scenarios.map (·.scenario) = other.scenarios.map (·.scenario) →
      report.verdict.judgements.map (fun judgement => (judgement.metric, judgement.predicate)) =
        other.verdict.judgements.map (fun judgement => (judgement.metric, judgement.predicate)) →
      report.text = other.text → Agree report other) ∧
    ∀ report : Report, StatesVerdict report := by
  refine ⟨fun report other single single' scenarios thresholds same => ?_, statesVerdict⟩
  have many := congrArg List.length thresholds
  rw [List.length_map, List.length_map] at many
  exact agree_of_text single single' scenarios many same

/-- A report of a run that lost arrivals. -/
def lossy (startedAt : Moment) : Report where
  runId := ⟨7⟩
  startedAt := startedAt
  elapsed := 1
  verdict := ⟨[⟨"iterations", "count>0", some 3, true⟩], true, none⟩
  scenarios := [⟨"ping", 1, 2, 3, 3, 4, 0⟩]
  summaries := []

/-- When a run was started is not told by the text. -/
theorem renderings_tell_lossy :
    (lossy ⟨0, 0⟩).text = (lossy ⟨1, 0⟩).text ∧ Agree (lossy ⟨0, 0⟩) (lossy ⟨1, 0⟩) ∧
      StatesVerdict (lossy ⟨0, 0⟩) ∧
      (Json.parse? Json.exactNumber (lossy ⟨0, 0⟩).json).bind overallPassed? = some true := by
  have single (startedAt : Moment) : (lossy startedAt).SingleLines :=
    ⟨by simp [lossy], by simp [lossy], by simp [lossy]⟩
  have fits : (lossy ⟨0, 0⟩).CountsFit := by
    refine ⟨?_, by simp [lossy]⟩
    rw [lossy, List.forall_mem_singleton]
    exact ⟨by decide, by decide, by decide, by decide, by decide⟩
  have states := renderings_tell.2 (lossy ⟨0, 0⟩)
  exact ⟨rfl, renderings_tell.1 _ _ (single ⟨0, 0⟩) (single ⟨1, 0⟩) rfl rfl rfl, states,
    states.json fits⟩

end Cadence.Report
