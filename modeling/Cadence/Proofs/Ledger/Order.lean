import Cadence.Proofs.Ledger.Figures
import Cadence.Run
import Mathlib.Data.List.Sort

/-!
# The order of records

The workers of a run write into one ledger in any order. A ledger keeps durations in the order in
which they come, but it is not asked for that order: whatever it is asked for, it answers the same
however its records are ordered, so that the verdict of a run depends on what was observed alone.
-/

namespace Cadence

namespace Ledger

/-- Two ledgers answer alike whatever they are asked for. -/
structure Alike (ledger other : Ledger) : Prop where
  iterations : ∀ scope, ledger.iterations scope = other.iterations scope
  dropped : ∀ scope, ledger.dropped scope = other.dropped scope
  requests : ∀ scope, ledger.requests scope = other.requests scope
  checkPassRate : ∀ scope, (ledger.checkPassRate scope : Option Float) = other.checkPassRate scope
  requestFailRate : ∀ scope,
    (ledger.requestFailRate scope : Option Float) = other.requestFailRate scope
  durationPercentile : ∀ (p : Float) scope,
    ledger.durationPercentile p scope = other.durationPercentile p scope
  observe : ∀ selector aggregation,
    (ledger.observe selector aggregation : Option Float) = other.observe selector aggregation
  judge : ∀ threshold, ledger.judge threshold = other.judge threshold
  evaluate : ∀ thresholds, ledger.evaluate thresholds = other.evaluate thresholds
  progress : ledger.progress = other.progress
  summary : ledger.summary = other.summary

/-- The order of the records does not change a total. -/
theorem total_perm {field : Tally → Nat} {weight : Item → Nat} (weighs : Item.Weighs field weight)
    (scope : Option String) {first second : List Record} (h : first.Perm second) :
    (ofRecords first).total scope field = (ofRecords second).total scope field := by
  rw [ofRecords_eq_ofItems, ofRecords_eq_ofItems, total_ofItems weighs, total_ofItems weighs]
  exact ((h.flatMap_right Record.items).map (weightIn scope weight)).sum_eq

/-- The order of the records does not change the rows, nor the order of their names. -/
theorem names_perm {first second : List Record} (h : first.Perm second) :
    (ofRecords first).names = (ofRecords second).names := by
  rw [ofRecords_eq_ofItems, ofRecords_eq_ofItems]
  refine List.Subset.antisymm_of_sortedLT ?_ ?_ (sorted_names_ofItems _).sortedLT
    (sorted_names_ofItems _).sortedLT
  · intro name
    simp only [mem_names_ofItems]
    exact fun named => (h.flatMap_right Record.items |>.map (·.1)).subset named
  · intro name
    simp only [mem_names_ofItems]
    exact fun named => (h.flatMap_right Record.items |>.map (·.1)).symm.subset named

/-- The counts of a scenario, read as totals in its scope. -/
def countsOf (ledger : Ledger) (scenario : String) : Summary where
  scenario := scenario
  iterations := ledger.total (some scenario) (·.iterations)
  droppedIterations := ledger.total (some scenario) (·.dropped)
  requests := ledger.total (some scenario) (·.requests)
  failedRequests := ledger.total (some scenario) (·.failedRequests)
  checksPassed := ledger.total (some scenario) (·.checksPassed)
  checksTotal := ledger.total (some scenario) (·.checksTotal)
  p95 := none

/-- With one row for each name, progress shows the totals of each of the names. -/
theorem progress_eq_map {ledger : Ledger} (sorted : ledger.names.Pairwise (· < ·)) :
    ledger.progress = ledger.names.map ledger.countsOf := by
  rw [progress, names, List.map_map]
  refine List.map_congr_left ?_
  rintro ⟨name, tally⟩ member
  simp only [Function.comp_apply, countsOf, total_of_mem sorted member]

/-- The order of the records does not change what progress shows. -/
theorem progress_perm {first second : List Record} (h : first.Perm second) :
    (ofRecords first).progress = (ofRecords second).progress := by
  have counts : (ofRecords first).countsOf = (ofRecords second).countsOf := by
    funext name
    simp only [countsOf, total_perm Item.weighs_iterations _ h, total_perm Item.weighs_drops _ h,
      total_perm Item.weighs_requests _ h, total_perm Item.weighs_failures _ h,
      total_perm Item.weighs_passes _ h, total_perm Item.weighs_checks _ h]
  rw [progress_eq_map (sorted_names_ofRecords first),
    progress_eq_map (sorted_names_ofRecords second), names_perm h, counts]

/-- The order of the records does not change the durations that are read. -/
theorem durations_perm (scope : Option String) {first second : List Record}
    (h : first.Perm second) :
    (ofRecords first).durations scope = (ofRecords second).durations scope :=
  durations_eq_of_total fun duration => total_perm (Item.weighs_keeps duration) scope h

/-- Ledgers of the same records in another order answer alike. -/
theorem alike_of_perm {first second : List Record} (h : first.Perm second) :
    Alike (ofRecords first) (ofRecords second) := by
  have percentile (p : Float) (scope : Option String) :
      (ofRecords first).durationPercentile p scope =
        (ofRecords second).durationPercentile p scope := by
    rw [durationPercentile, millis, durations_perm scope h]
    rfl
  have observe (selector : Selector) (aggregation : Aggregation) :
      ((ofRecords first).observe selector aggregation : Option Float) =
        (ofRecords second).observe selector aggregation :=
    observe_eq_of_figures
      (figures_eq_of_total (fun weighs => total_perm weighs selector.scenario h) selector.metric)
      aggregation
  have judge (threshold : Threshold) :
      (ofRecords first).judge threshold = (ofRecords second).judge threshold :=
    congrArg (Judgement.ofObserved threshold) (observe ..)
  exact {
    iterations := fun scope => total_perm Item.weighs_iterations scope h
    dropped := fun scope => total_perm Item.weighs_drops scope h
    requests := fun scope => total_perm Item.weighs_requests scope h
    checkPassRate := fun scope => observe ⟨.checks, scope⟩ .rate
    requestFailRate := fun scope => observe ⟨.requestFailures, scope⟩ .rate
    durationPercentile := percentile
    observe := observe
    judge := judge
    evaluate := fun thresholds => by rw [evaluate, funext judge]; rfl
    progress := progress_perm h
    summary := by
      rw [summary, progress_perm h]
      simp only [percentile]
      rfl }

end Ledger

/-- The order in which records reach the ledger of a run changes nothing that is asked of it, and
not the verdict of the run. -/
theorem Run.order_immaterial {first second : List Record} (h : first.Perm second) :
    Ledger.Alike (.ofRecords first) (.ofRecords second) ∧
    ∀ (run : Run) (thresholds : List Threshold),
      { run with ledger := .ofRecords first }.verdict thresholds =
        { run with ledger := .ofRecords second }.verdict thresholds := by
  have alike := Ledger.alike_of_perm h
  refine ⟨alike, fun run thresholds => ?_⟩
  simp only [Run.verdict, alike.evaluate]

/-- Two requests in either order are kept in that order, and answered for alike. -/
theorem Run.order_immaterial_swap :
    let fast := Record.sample ⟨"ping", "GET /ping", ⟨1000000⟩, false, some 200⟩
    let slow := Record.sample ⟨"ping", "GET /ping", ⟨3000000⟩, true, none⟩
    Ledger.ofRecords [fast, slow] ≠ Ledger.ofRecords [slow, fast] ∧
      List.Perm [fast, slow] [slow, fast] ∧
      Ledger.Alike (.ofRecords [fast, slow]) (.ofRecords [slow, fast]) := by
  intro fast slow
  have swapped : List.Perm [fast, slow] [slow, fast] := .swap ..
  exact ⟨by decide, swapped, (Run.order_immaterial swapped).1⟩

end Cadence
