import Cadence.Proofs.Json.Grammar
import Cadence.Proofs.Report.Document

/-!
# What a consumer of the document reads

The document of a report is decoded by the names of its fields, as whoever reads the saved file does
it. Nothing is lost but the numbers that are not finite: in the place of such a number the consumer
finds none.
-/

namespace Cadence

namespace Json

def text? : Json → Option String
  | .str s => some s
  | _ => none

def flag? : Json → Option Bool
  | .bool b => some b
  | _ => none

def count? : Json → Option Nat
  | .int n => n.toNat?
  | _ => none

/-- A value that may be missing. -/
def optional? {α : Type} (value : Json → Option α) : Json → Option (Option α)
  | .null => some none
  | document => (value document).map some

def number? : Json → Option Float
  | .float x => some x
  | _ => none

def list? {α : Type} (item : Json → Option α) : Json → Option (List α)
  | .arr items => items.mapM item
  | _ => none

end Json

/-- A number, if it is finite. -/
def finite? (x : Float) : Option Float := if x.isFinite then some x else none

/-- The judgement as its document tells it. -/
def Judgement.readout (judgement : Judgement) : Judgement :=
  { judgement with observed := judgement.observed.bind finite? }

/-- The verdict as its document tells it. -/
def Verdict.readout (verdict : Verdict) : Verdict :=
  { verdict with judgements := verdict.judgements.map Judgement.readout }

/-- The figures as their document tells them. -/
def Summary.readout (summary : Summary) : Summary :=
  { summary with p95 := summary.p95.bind finite? }

/-- The accounting of a scenario as its document tells it. -/
structure ScenarioStats.Readout where
  scenario : String
  targetRate : Option Float
  workers : Nat
  dispatched : Nat
  completed : Nat
  dropped : Nat
  abandoned : Nat

@[inherit_doc ScenarioStats.Readout]
def ScenarioStats.readout (stats : ScenarioStats) : ScenarioStats.Readout where
  scenario := stats.scenario
  targetRate := finite? stats.targetRate
  workers := stats.workers
  dispatched := stats.dispatched
  completed := stats.completed
  dropped := stats.dropped
  abandoned := stats.abandoned

/-- The report as its document tells it. The run and its start are known by their texts. -/
structure Report.Readout where
  runId : String
  startedAt : String
  elapsed : Option Float
  verdict : Verdict
  scenarios : List ScenarioStats.Readout
  summaries : List Summary

@[inherit_doc Report.Readout]
def Report.readout (report : Report) : Report.Readout where
  runId := report.runId.text
  startedAt := report.startedAt.text .zulu
  elapsed := finite? report.elapsed
  verdict := report.verdict.readout
  scenarios := report.scenarios.map ScenarioStats.readout
  summaries := report.summaries.map Summary.readout

section Decode

open Json

def Judgement.ofJson? (document : Json) : Option Judgement := do
  let metric ← (← document.field? "metric").text?
  let predicate ← (← document.field? "predicate").text?
  let observed ← (← document.field? "observed").optional? number?
  let passed ← (← document.field? "passed").flag?
  some { metric, predicate, observed, passed }

def Verdict.ofJson? (document : Json) : Option Verdict := do
  let judgements ← (← document.field? "thresholds").list? Judgement.ofJson?
  let passed ← (← document.field? "overall_passed").flag?
  let aborted ← (← document.field? "aborted").optional? text?
  some { judgements, passed, aborted }

def ScenarioStats.Readout.ofJson? (document : Json) : Option ScenarioStats.Readout := do
  let scenario ← (← document.field? "scenario").text?
  let targetRate ← (← document.field? "target_rate").optional? number?
  let workers ← (← document.field? "workers").count?
  let dispatched ← (← document.field? "dispatched").count?
  let completed ← (← document.field? "completed").count?
  let dropped ← (← document.field? "dropped").count?
  let abandoned ← (← document.field? "abandoned").count?
  some { scenario, targetRate, workers, dispatched, completed, dropped, abandoned }

def Summary.ofJson? (document : Json) : Option Summary := do
  let scenario ← (← document.field? "scenario").text?
  let iterations ← (← document.field? "iterations").count?
  let droppedIterations ← (← document.field? "dropped_iterations").count?
  let requests ← (← document.field? "requests").count?
  let failedRequests ← (← document.field? "failed_requests").count?
  let checksPassed ← (← document.field? "checks_passed").count?
  let checksTotal ← (← document.field? "checks_total").count?
  let p95 ← (← document.field? "p95_ms").optional? number?
  some { scenario, iterations, droppedIterations, requests, failedRequests, checksPassed,
         checksTotal, p95 }

def Report.Readout.ofJson? (document : Json) : Option Report.Readout := do
  let runId ← (← document.field? "run_id").text?
  let startedAt ← (← document.field? "started_at").text?
  let elapsed ← (← document.field? "elapsed_secs").optional? number?
  let verdict ← Verdict.ofJson? (← document.field? "result")
  let scenarios ← (← document.field? "scenarios").list? ScenarioStats.Readout.ofJson?
  let summaries ← (← document.field? "summaries").list? Summary.ofJson?
  some { runId, startedAt, elapsed, verdict, scenarios, summaries }

end Decode

namespace Json

variable {α β : Type}

/-- A field is found by its name. -/
theorem field?_readBack_obj (name : String) (fields : List (String × Json)) :
    (readBack (.obj fields)).field? name = (fields.lookup name).map readBack := by
  rw [readBack, field?]
  induction fields with
  | nil => rfl
  | cons field fields ih =>
    obtain ⟨other, value⟩ := field
    rw [readBackFields, List.lookup_cons, List.lookup_cons, ih]
    cases name == other <;> rfl

@[simp] theorem text?_readBack_str (s : String) : (readBack (.str s)).text? = some s := rfl

@[simp] theorem flag?_readBack_bool (b : Bool) : (readBack (.bool b)).flag? = some b := rfl

@[simp] theorem count?_readBack_nat (n : Nat) : (readBack (nat n)).count? = some n := rfl

/-- A finite number is decoded as itself, any other as missing. -/
@[simp] theorem optional?_readBack_float (x : Float) :
    (readBack (.float x)).optional? number? = some (finite? x) := by
  rw [readBack, finite?]
  split <;> rfl

@[simp] theorem optional?_readBack_optional_float (x : Option Float) :
    (readBack (optional .float x)).optional? number? = some (x.bind finite?) := by
  cases x with
  | none => rfl
  | some x => exact optional?_readBack_float x

@[simp] theorem optional?_readBack_optional_str (s : Option String) :
    (readBack (optional .str s)).optional? text? = some s := by
  cases s <;> rfl

theorem readBackItems_map (f : α → Json) (xs : List α) :
    readBackItems (xs.map f) = xs.map fun x => (f x).readBack := by
  induction xs with
  | nil => rfl
  | cons x xs ih => rw [List.map_cons, readBackItems, ih, List.map_cons]

/-- A list is decoded in order if each of its items is decoded. -/
theorem list?_readBack_map {f : α → Json} {item : Json → Option β} {g : α → β}
    (each : ∀ x, item (f x).readBack = some (g x)) (xs : List α) :
    (readBack (.arr (xs.map f))).list? item = some (xs.map g) := by
  rw [readBack, readBackItems_map, list?]
  induction xs with
  | nil => rfl
  | cons x xs ih => simp [each, ih]

end Json

open Json

theorem Judgement.ofJson?_readBack (judgement : Judgement) :
    ofJson? (Report.judgementJson judgement).readBack = some judgement.readout := by
  simp [Report.judgementJson, ofJson?, field?_readBack_obj, List.lookup, readout]

theorem Verdict.ofJson?_readBack (verdict : Verdict) :
    ofJson? (Report.verdictJson verdict).readBack = some verdict.readout := by
  simp [Report.verdictJson, ofJson?, field?_readBack_obj, List.lookup, readout,
    list?_readBack_map Judgement.ofJson?_readBack]

theorem ScenarioStats.ofJson?_readBack (stats : ScenarioStats) :
    Readout.ofJson? (Report.statsJson stats).readBack = some stats.readout := by
  simp [Report.statsJson, Readout.ofJson?, field?_readBack_obj, List.lookup, readout]

theorem Summary.ofJson?_readBack (summary : Summary) :
    ofJson? (Report.summaryJson summary).readBack = some summary.readout := by
  simp [Report.summaryJson, ofJson?, field?_readBack_obj, List.lookup, readout]

namespace Report

theorem ofJson?_readBack_document (report : Report) :
    Readout.ofJson? report.document.readBack = some report.readout := by
  simp [document, Readout.ofJson?, field?_readBack_obj, List.lookup, readout,
    Verdict.ofJson?_readBack, list?_readBack_map ScenarioStats.ofJson?_readBack,
    list?_readBack_map Summary.ofJson?_readBack]

/-- The JSON rendering of a report whose counts are words of 64 bits is a JSON text, and whoever
decodes it gets back all that the report says: every text, count, switch and list in order, every
finite number as it is, and nothing in the place of a number that is not finite. -/
theorem json_decoded (report : Report) (fits : report.CountsFit) :
    WellFormed report.json ∧
      (parse? exactNumber report.json).bind Readout.ofJson? = some report.readout := by
  refine ⟨wellFormed_text report.document, ?_⟩
  rw [parse?_json fits, Option.bind_some, ofJson?_readBack_document]

/-- A report with texts that have to be escaped and numbers at the ends of their ranges. -/
def extreme : Report where
  runId := ⟨0⟩
  startedAt := ⟨-1, 500⟩
  elapsed := 0 / 0
  verdict :=
    ⟨[⟨"checks\x7bscenario:\"\\\n\x01é\x7d", "rate>0.1", some (1 / 0), false⟩,
      ⟨"", "", some 0.1, true⟩], false, some "\t\x7f"⟩
  scenarios := [⟨"ping", -0.0, 0, 18446744073709551615, 9007199254740993, 0, 1⟩]
  summaries := [⟨"ping", 18446744073709551615, 0, 1, 0, 1, 1, none⟩]

/-- Infinity is read as no value, and so is what was not observed at all. -/
theorem json_decoded_extreme :
    extreme.CountsFit ∧ WellFormed extreme.json ∧
      (parse? exactNumber extreme.json).bind Readout.ofJson? = some extreme.readout ∧
      extreme.readout.elapsed = none ∧
      extreme.readout.verdict.judgements.map (·.observed) = [none, some 0.1] := by
  have fits : extreme.CountsFit := by
    constructor
    · rw [extreme, List.forall_mem_singleton]
      exact ⟨by decide, by decide, by decide, by decide, by decide⟩
    · rw [extreme, List.forall_mem_singleton]
      exact ⟨by decide, by decide, by decide, by decide, by decide, by decide⟩
  have noNumber : finite? (0 / 0) = none := if_neg (by decide +kernel)
  have infinite : finite? (1 / 0) = none := if_neg (by decide +kernel)
  have tenth : finite? 0.1 = some 0.1 := if_pos (by decide +kernel)
  obtain ⟨written, decoded⟩ := json_decoded extreme fits
  refine ⟨fits, written, decoded, noNumber, ?_⟩
  show [finite? (1 / 0), finite? 0.1] = _
  rw [infinite, tenth]

end Report

end Cadence
