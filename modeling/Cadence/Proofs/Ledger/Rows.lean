import Cadence.Proofs.Ledger.Order
import Cadence.Proofs.Ledger.Trend
import Cadence.Proofs.Text.Bytes

/-!
# Rows of a ledger

Progress is read off the rows of a ledger, and queries add up what lies in a scope. A scenario that
is named in any way, by nothing but a check or a dropped arrival perhaps, has one row, and the row
shows what the queries in the scope of that scenario answer; all rows together show what the queries
without a scope answer. The summary adds a percentile, which is there as soon as there is a request.
-/

namespace Cadence

/-- The scenarios that a record names: its own, and those of the checks and samples it reports. -/
def Record.scenarios : Record → List String
  | .iteration scenario outcome =>
    scenario :: (outcome.checks.map (·.scenario) ++ outcome.samples.map (·.scenario))
  | .check made => [made.scenario]
  | .sample observed => [observed.scenario]
  | .dropped scenario => [scenario]

theorem Record.map_items (record : Record) : record.items.map (·.1) = record.scenarios := by
  cases record <;> simp [items, scenarios, Function.comp_def]

namespace Ledger

/-- A row shows what the ledger answers in the scope of the scenario of that row. -/
structure Matches (ledger : Ledger) (row : Summary) : Prop where
  iterations : row.iterations = ledger.iterations (some row.scenario)
  droppedIterations : row.droppedIterations = ledger.dropped (some row.scenario)
  requests : row.requests = ledger.requests (some row.scenario)
  failedRequests : row.failedRequests = ledger.total (some row.scenario) (·.failedRequests)
  checksPassed : row.checksPassed = ledger.total (some row.scenario) (·.checksPassed)
  checksTotal : row.checksTotal = ledger.total (some row.scenario) (·.checksTotal)
  checkPassRate : row.checkPassRate = ledger.checkPassRate (some row.scenario)
  requestFailRate : Quantity.ratio row.failedRequests row.requests =
    (ledger.requestFailRate (some row.scenario) : Option Float)
  failedRequests_le : row.failedRequests ≤ row.requests
  checksPassed_le : row.checksPassed ≤ row.checksTotal

/-- The columns of some rows add up to what the ledger answers for all scenarios together. -/
structure AddUp (ledger : Ledger) (rows : List Summary) : Prop where
  iterations : (rows.map (·.iterations)).sum = ledger.iterations none
  droppedIterations : (rows.map (·.droppedIterations)).sum = ledger.dropped none
  requests : (rows.map (·.requests)).sum = ledger.requests none
  failedRequests : (rows.map (·.failedRequests)).sum = ledger.total none (·.failedRequests)
  checksPassed : (rows.map (·.checksPassed)).sum = ledger.total none (·.checksPassed)
  checksTotal : (rows.map (·.checksTotal)).sum = ledger.total none (·.checksTotal)

section Rows

variable {records : List Record}

theorem mem_names_ofRecords (name : String) :
    name ∈ (ofRecords records).names ↔ ∃ record ∈ records, name ∈ record.scenarios := by
  rw [ofRecords_eq_ofItems, mem_names_ofItems, List.map_flatMap]
  simp only [Record.map_items, List.mem_flatMap]

theorem map_scenario_progress (ledger : Ledger) :
    ledger.progress.map (·.scenario) = ledger.names := by
  rw [progress, List.map_map]
  rfl

/-- The counts of a scenario are those that the queries in its scope answer. -/
theorem matches_countsOf (name : String) :
    (ofRecords records).Matches ((ofRecords records).countsOf name) where
  iterations := rfl
  droppedIterations := rfl
  requests := rfl
  failedRequests := rfl
  checksPassed := rfl
  checksTotal := rfl
  checkPassRate := rfl
  requestFailRate := rfl
  failedRequests_le := by
    show (ofRecords records).total (some name) (·.failedRequests) ≤
      (ofRecords records).requests (some name)
    rw [failures_ofRecords, requests_ofRecords]
    exact List.countP_le_length
  checksPassed_le := by
    show (ofRecords records).total (some name) (·.checksPassed) ≤
      (ofRecords records).total (some name) (·.checksTotal)
    rw [passes_ofRecords, checks_ofRecords]
    exact List.countP_le_length

theorem matches_of_mem_progress {row : Summary} (shown : row ∈ (ofRecords records).progress) :
    (ofRecords records).Matches row := by
  rw [progress_eq_map (sorted_names_ofRecords records)] at shown
  obtain ⟨name, -, rfl⟩ := List.mem_map.mp shown
  exact matches_countsOf name

/-- A column that shows a field of the tallies adds up to the total of the field. -/
theorem sum_column (ledger : Ledger) {shown : Summary → ℕ} {field : Tally → ℕ}
    (column : ledger.progress.map shown = ledger.rows.map fun row => field row.2) :
    (ledger.progress.map shown).sum = ledger.total none field := by
  obtain ⟨rows⟩ := ledger
  rw [column, total_rows]
  simp [inScope]

theorem addUp_progress (ledger : Ledger) : ledger.AddUp ledger.progress where
  iterations := ledger.sum_column (List.map_map ..)
  droppedIterations := ledger.sum_column (List.map_map ..)
  requests := ledger.sum_column (List.map_map ..)
  failedRequests := ledger.sum_column (List.map_map ..)
  checksPassed := ledger.sum_column (List.map_map ..)
  checksTotal := ledger.sum_column (List.map_map ..)

/-- The 95th percentile of a scenario is there exactly if there is a request of it. -/
theorem isSome_p95 (scope : Option String) :
    ((ofRecords records).durationPercentile (95 : Float) scope).isSome = true ↔
      0 < (ofRecords records).requests scope := by
  have worth : Nearest.IsNumber 95 95 := by
    exact_mod_cast Nearest.isNumber_natCast (by norm_num : 95 < 2 ^ 53)
  rw [durationPercentile, Rank.isSome_percentile_of_low worth (by norm_num), millis_ne_nil_iff,
    Nat.pos_iff_ne_zero]

end Rows

/-- Progress has one row for each scenario that a record names, in the order of their bytes; each
row shows what the queries in the scope of its scenario answer, and all of them add up to what the
queries without a scope answer. The summary has the same rows with the 95th percentile of each
scenario, which is there exactly if the row shows a request. -/
theorem rows_match_queries (records : List Record) :
    let ledger := ofRecords records
    (∀ name, name ∈ ledger.progress.map (·.scenario) ↔
      ∃ record ∈ records, name ∈ record.scenarios) ∧
    (ledger.progress.map (Text.bytes ·.scenario)).Pairwise (· < ·) ∧
    (∀ row ∈ ledger.progress, ledger.Matches row) ∧
    ledger.AddUp ledger.progress ∧
    ledger.summary.map (fun row => { row with p95 := none }) = ledger.progress ∧
    ∀ row ∈ ledger.summary, row.p95 = ledger.durationPercentile 95 (some row.scenario) ∧
      (row.p95.isSome = true ↔ 0 < row.requests) := by
  intro ledger
  refine ⟨fun name => ?_, ?_, fun row => matches_of_mem_progress, addUp_progress ledger, ?_, ?_⟩
  · rw [map_scenario_progress]
    exact mem_names_ofRecords name
  · have names : ledger.progress.map (Text.bytes ·.scenario) = ledger.names.map Text.bytes := by
      rw [← map_scenario_progress, List.map_map]
      rfl
    rw [names, List.pairwise_map]
    exact (sorted_names_ofRecords records).imp Text.bytes_lt_iff.mpr
  · rw [summary, progress, List.map_map, List.map_map]
    rfl
  · intro row shown
    obtain ⟨counts, member, rfl⟩ := List.mem_map.mp shown
    refine ⟨rfl, ?_⟩
    show (ledger.durationPercentile (95 : Float) (some counts.scenario)).isSome = true ↔
      0 < counts.requests
    rw [isSome_p95, (matches_of_mem_progress member).requests]

theorem rows_match_queries_check :
    let ledger := ofRecords [.dropped "pong", .check ⟨"ping", "status", true⟩]
    let row : Summary := ⟨"ping", 0, 0, 0, 0, 1, 1, none⟩
    row ∈ ledger.progress ∧ ledger.Matches row := by
  have shown : (⟨"ping", 0, 0, 0, 0, 1, 1, none⟩ : Summary) ∈
      (ofRecords [.dropped "pong", .check ⟨"ping", "status", true⟩]).progress := List.mem_cons_self
  obtain ⟨-, -, matched, -⟩ :=
    rows_match_queries [.dropped "pong", .check ⟨"ping", "status", true⟩]
  exact ⟨shown, matched _ shown⟩

end Ledger

end Cadence
