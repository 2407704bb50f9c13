import Cadence.Proofs.Ledger.Order
import Cadence.Proofs.Ledger.Recount
import Cadence.Proofs.Run.Books
import Cadence.Quantity.Exact

/-!
# Checks and requests in pairs

A scenario judges each reply twice: by a check, and by the sample of the request. Both go into the
ledger with the same record, so that whoever reads it, at whatever moment, finds as many checks as
requests, and as many failed requests as checks that did not pass: in every scope the two rates add
up to one. Of `ping` there is one pair for each iteration, of `putGet` there are two.
-/

namespace Cadence

open Ledger (inScope)

/-- What a run of built-in scenarios writes down: a dropped arrival, or an iteration with all its
pairs. -/
inductive Record.Paired : Record → Prop where
  | dropped (name : String) : Record.Paired (.dropped name)
  | ping {outcome : Outcome} (h : outcome.Paired pingName 1) :
      Record.Paired (.iteration pingName outcome)
  | putGet {outcome : Outcome} (h : outcome.Paired putGetName 2) :
      Record.Paired (.iteration putGetName outcome)

namespace Outcome.Observes

variable {name : String} {outcome : Outcome}

/-- The checks of an iteration lie in the scopes of its scenario. -/
theorem checksIn (h : outcome.Observes name) (scope : Option String) :
    (Record.iteration name outcome).checksIn scope =
      if inScope scope name then outcome.checks else [] := by
  have same : (Record.iteration name outcome).checksIn scope =
      outcome.checks.filter fun _ => inScope scope name :=
    List.filter_congr fun check made => by rw [h.1 check made]
  rw [same]
  cases inScope scope name <;> simp

/-- The samples of an iteration lie in the scopes of its scenario. -/
theorem samplesIn (h : outcome.Observes name) (scope : Option String) :
    (Record.iteration name outcome).samplesIn scope =
      if inScope scope name then outcome.samples else [] := by
  have same : (Record.iteration name outcome).samplesIn scope =
      outcome.samples.filter fun _ => inScope scope name :=
    List.filter_congr fun sample made => by rw [h.2 sample made]
  rw [same]
  cases inScope scope name <;> simp

end Outcome.Observes

namespace Outcome.Paired

variable {name : String} {count : Nat} {outcome : Outcome}

theorem verdictsIn (h : outcome.Paired name count) (scope : Option String) :
    ((Record.iteration name outcome).samplesIn scope).map (·.failed) =
      ((Record.iteration name outcome).checksIn scope).map (!·.passed) := by
  rw [h.observes.samplesIn, h.observes.checksIn]
  split
  · exact h.verdicts
  · rfl

/-- An iteration counts with as many requests as it makes, or not at all. -/
theorem length_samplesIn (h : outcome.Paired name count) (scope : Option String) :
    ((Record.iteration name outcome).samplesIn scope).length =
      count * ((Record.iteration name outcome).isIteration scope).toNat := by
  rw [h.observes.samplesIn, Record.isIteration]
  cases inScope scope name
  · rfl
  · exact h.requests.trans (Nat.mul_one count).symm

end Outcome.Paired

namespace Record.Paired

variable {record : Record}

/-- In every scope the requests of a record failed exactly where its checks did not pass. -/
theorem verdicts (h : record.Paired) (scope : Option String) :
    (record.samplesIn scope).map (·.failed) = (record.checksIn scope).map (!·.passed) := by
  cases h with
  | dropped name => rfl
  | ping h => exact h.verdictsIn scope
  | putGet h => exact h.verdictsIn scope

theorem observes {name : String} {outcome : Outcome} (h : (Record.iteration name outcome).Paired) :
    outcome.Observes name := by
  cases h with
  | ping h => exact h.observes
  | putGet h => exact h.observes

/-- A record of another scenario is not seen. -/
theorem unseen {name other : String} {count : Nat} {outcome : Outcome}
    (h : outcome.Paired name count) (apart : name ≠ other) :
    ((Record.iteration name outcome).samplesIn (some other)).length = 0 ∧
      (Record.iteration name outcome).isIteration (some other) = false := by
  have outside : inScope (some other) name = false := by
    simpa [inScope] using apart.symm
  constructor
  · rw [h.observes.samplesIn, outside]
    rfl
  · exact outside

theorem requests_ping (h : record.Paired) :
    (record.samplesIn (some pingName)).length =
      1 * (record.isIteration (some pingName)).toNat := by
  cases h with
  | dropped name => rfl
  | ping h => exact h.length_samplesIn _
  | putGet h =>
    obtain ⟨none, other⟩ := unseen h (by decide : putGetName ≠ pingName)
    rw [none, other]
    rfl

theorem requests_putGet (h : record.Paired) :
    (record.samplesIn (some putGetName)).length =
      2 * (record.isIteration (some putGetName)).toNat := by
  cases h with
  | dropped name => rfl
  | ping h =>
    obtain ⟨none, other⟩ := unseen h (by decide : pingName ≠ putGetName)
    rw [none, other]
    rfl
  | putGet h => exact h.length_samplesIn _

end Record.Paired

/-- Two lists of verdicts, one the opposite of the other: they are equally long, and every place is
counted in one of them. -/
theorem countP_add_countP_of_opposed {α β : Type} {p : α → Bool} {q : β → Bool} {first : List α}
    {second : List β} (opposed : first.map p = second.map (!q ·)) :
    second.length = first.length ∧ first.countP p + second.countP q = first.length := by
  have lengths : first.length = second.length := by simpa using congrArg List.length opposed
  have counts : first.countP p = second.countP (!q ·) := by
    have := congrArg (List.countP id) opposed
    simpa [List.countP_map, Function.comp_def] using this
  have split := List.length_eq_countP_add_countP q (l := second)
  simp only [Bool.not_eq_true, Bool.decide_eq_false] at split
  omega

/-- What is found in a scope of a ledger that holds pairs only. -/
structure Ledger.PairedIn (ledger : Ledger) (scope : Option String) : Prop where
  checks : ledger.total scope (·.checksTotal) = ledger.requests scope
  verdicts : ledger.total scope (·.failedRequests) + ledger.total scope (·.checksPassed) =
    ledger.requests scope

section Paired

variable {records : List Record} (paired : ∀ record ∈ records, record.Paired)

include paired

theorem Ledger.pairedIn_ofRecords (scope : Option String) :
    (Ledger.ofRecords records).PairedIn scope := by
  have opposed : (History.samples scope records).map (·.failed) =
      (History.checks scope records).map (!·.passed) := by
    rw [History.samples, History.checks, List.map_flatMap, List.map_flatMap]
    exact List.flatMap_congr fun record written => (paired record written).verdicts scope
  obtain ⟨lengths, counts⟩ := countP_add_countP_of_opposed opposed
  constructor
  · rw [Ledger.checks_ofRecords, Ledger.requests_ofRecords, lengths]
  · rw [Ledger.failures_ofRecords, Ledger.passes_ofRecords, Ledger.requests_ofRecords, counts]

/-- If every record counts so many requests for each iteration, so does the ledger. -/
theorem Ledger.requests_eq_mul_iterations {name : String} {count : Nat}
    (each : ∀ record : Record, record.Paired → (record.samplesIn (some name)).length =
      count * (record.isIteration (some name)).toNat) :
    (Ledger.ofRecords records).requests (some name) =
      count * (Ledger.ofRecords records).iterations (some name) := by
  rw [Ledger.requests_ofRecords, Ledger.iterations_ofRecords, History.samples,
    History.iterations, ← sum_toNat, List.length_flatMap, ← List.sum_map_mul_left]
  exact congrArg List.sum (List.map_congr_left fun record written =>
    each record (paired record written))

end Paired

/-- Shares of pairs add up to one. -/
theorem Ledger.PairedIn.rates {ledger : Ledger} {scope : Option String}
    (h : ledger.PairedIn scope) (seen : ledger.requests scope ≠ 0) :
    ∃ passed failed : Rat, ledger.checkPassRate scope = some passed ∧
      ledger.requestFailRate scope = some failed ∧ passed + failed = 1 := by
  refine ⟨_, _, if_neg (h.checks ▸ seen), if_neg seen, ?_⟩
  have total : (ledger.requests scope : Rat) ≠ 0 := by exact_mod_cast seen
  have sum : ((ledger.total scope (·.checksPassed) : Nat) : Rat) +
      (ledger.total scope (·.failedRequests) : Nat) = ledger.requests scope := by
    rw [← h.verdicts]
    push_cast
    ring
  show (ledger.total scope (·.checksPassed) : Rat) / (ledger.total scope (·.checksTotal) : Nat) +
    (ledger.total scope (·.failedRequests) : Nat) / (ledger.requests scope : Nat) = 1
  rw [h.checks, ← add_div, sum, div_self total]

namespace Run

/-- What a run of configured scenarios writes down. -/
theorem paired_records {config : RunConfig} {plans : List Plan}
    (h : Plan.ofConfig config = .ok plans) (thresholds : List Threshold) (cell : StopCell)
    (events : List RunEvent) :
    ∀ record ∈ ((start plans thresholds cell).deeds events).filterMap
      (start plans thresholds cell).record?, record.Paired := by
  intro record written
  obtain ⟨plan, planned, rfl | ⟨outcome, yields, rfl⟩⟩ := record_of_run written
  · exact .dropped _
  · obtain ⟨-, builtIn, -⟩ := Plan.ofConfig_eq_ok h
    rcases (builtIn plan planned).paired yields with ⟨name, paired⟩ | ⟨name, paired⟩
    · rw [name] at paired ⊢
      exact .ping paired
    · rw [name] at paired ⊢
      exact .putGet paired

/-- An event writes one record or none. -/
theorem ledger_apply_one (run : Run) (event : RunEvent) :
    (run.apply event).ledger = run.ledger ∨
      ∃ record, (run.apply event).ledger = run.ledger.add record := by
  rw [ledger_apply]
  cases run.noted Executor.eventDeed? event with
  | none => exact Or.inl rfl
  | some entry =>
    cases written : run.record? entry with
    | none => exact Or.inl (by simp [written])
    | some record => exact Or.inr ⟨record, by simp [written]⟩

/-- The ledger of a run of configured scenarios at every moment, whatever has been answered and in
whatever order iterations end: one request and one check for each iteration of `ping`, two of each
for one of `putGet`, and in every scope as many checks as requests and as many failed requests as
checks that did not pass. So the two rates, where there are any, add up to one. The rows that are
shown say the same, and every event moves the ledger by one whole record or leaves it alone. -/
theorem checks_match_requests {config : RunConfig} {plans : List Plan}
    (h : Plan.ofConfig config = .ok plans) (thresholds : List Threshold) (cell : StopCell)
    (events : List RunEvent) :
    let run := (Run.start plans thresholds cell).applyAll events
    let ledger := run.ledger
    (ledger.requests (some pingName) = ledger.iterations (some pingName) ∧
      ledger.total (some pingName) (·.checksTotal) = ledger.iterations (some pingName)) ∧
    (ledger.requests (some putGetName) = 2 * ledger.iterations (some putGetName) ∧
      ledger.total (some putGetName) (·.checksTotal) =
        2 * ledger.iterations (some putGetName)) ∧
    (∀ scope, ledger.total scope (·.checksTotal) = ledger.requests scope ∧
      ledger.total scope (·.failedRequests) + ledger.total scope (·.checksPassed) =
        ledger.requests scope ∧
      (ledger.requests scope ≠ 0 → ∃ passed failed : Rat,
        ledger.checkPassRate scope = some passed ∧ ledger.requestFailRate scope = some failed ∧
          passed + failed = 1)) ∧
    (∀ row ∈ ledger.progress ++ ledger.summary, row.checksTotal = row.requests ∧
      row.failedRequests + row.checksPassed = row.requests ∧
      (row.scenario = pingName → row.requests = row.iterations) ∧
      (row.scenario = putGetName → row.requests = 2 * row.iterations)) ∧
    ∀ event, (run.apply event).ledger = ledger ∨
      ∃ record : Record, (run.apply event).ledger = ledger.add record := by
  intro run ledger
  obtain ⟨records, written, paired⟩ : ∃ records, ledger = Ledger.ofRecords records ∧
      ∀ record ∈ records, record.Paired :=
    ⟨_, ledger_applyAll _ events, paired_records h thresholds cell events⟩
  have pairs : ∀ scope, ledger.PairedIn scope := fun scope => by
    rw [written]
    exact Ledger.pairedIn_ofRecords paired scope
  have pings : ledger.requests (some pingName) = 1 * ledger.iterations (some pingName) := by
    rw [written]
    exact Ledger.requests_eq_mul_iterations paired fun _ => Record.Paired.requests_ping
  have putGets : ledger.requests (some putGetName) =
      2 * ledger.iterations (some putGetName) := by
    rw [written]
    exact Ledger.requests_eq_mul_iterations paired fun _ => Record.Paired.requests_putGet
  rw [Nat.one_mul] at pings
  have rows : ∀ row ∈ ledger.progress, row = ledger.countsOf row.scenario := by
    have sorted : ledger.names.Pairwise (· < ·) := by
      rw [written, Ledger.ofRecords_eq_ofItems]
      exact Ledger.sorted_names_ofItems _
    rw [Ledger.progress_eq_map sorted]
    intro row shown
    obtain ⟨name, -, rfl⟩ := List.mem_map.mp shown
    rfl
  have counted : ∀ row ∈ ledger.progress, row.checksTotal = row.requests ∧
      row.failedRequests + row.checksPassed = row.requests ∧
      (row.scenario = pingName → row.requests = row.iterations) ∧
      (row.scenario = putGetName → row.requests = 2 * row.iterations) := by
    intro row shown
    rw [rows row shown]
    exact ⟨(pairs _).checks, (pairs _).verdicts, fun same => same ▸ pings,
      fun same => same ▸ putGets⟩
  refine ⟨⟨pings, (pairs _).checks.trans pings⟩, ⟨putGets, (pairs _).checks.trans putGets⟩,
    fun scope => ⟨(pairs scope).checks, (pairs scope).verdicts, (pairs scope).rates⟩, ?_,
    ledger_apply_one run⟩
  intro row shown
  rcases List.mem_append.mp shown with shown | shown
  · exact counted row shown
  · obtain ⟨progress, inside, rfl⟩ := List.mem_map.mp shown
    exact counted progress inside

/-- One iteration of each scenario, joined in the other order; the write is refused and the read is
lost. -/
def refusals : List RunEvent :=
  [.step 0 .enter, .step 0 .tick, .step 1 .enter, .step 1 .tick, .task 0 0 (.begin 7),
    .task 1 50 (.begin 7), .task 0 0 (.answer (.ofStatus 200 .zero)),
    .task 1 50 (.answer (.ofStatus 500 .zero)), .task 1 50 (.answer (.lost "reset" .zero)),
    .task 1 50 .wake, .task 0 0 .wake, .step 1 (.join 50), .step 0 (.join 0)]

theorem checks_match_requests_default :
    ∃ plans, Plan.ofConfig RunConfig.default = .ok plans ∧
      let ledger :=
        ((Run.start plans RunConfig.default.thresholds (.initial none)).applyAll refusals).ledger
      ledger.requests none = 3 ∧ ledger.total none (·.failedRequests) = 2 ∧
        ∃ passed failed : Rat, ledger.checkPassRate none = some passed ∧
          ledger.requestFailRate none = some failed ∧ passed + failed = 1 := by
  have computed : (Plan.ofConfig RunConfig.default).toOption.map (fun plans =>
      let ledger :=
        ((Run.start plans RunConfig.default.thresholds (.initial none)).applyAll refusals).ledger
      (ledger.requests none, ledger.total none (·.failedRequests))) = some (3, 2) := by
    decide +kernel
  obtain ⟨plans, h⟩ := Plan.ofConfig_default
  rw [h] at computed
  injection computed with computed
  injection computed with requests failures
  obtain ⟨-, -, scopes, -⟩ :=
    checks_match_requests h RunConfig.default.thresholds (.initial none) refusals
  obtain ⟨-, -, rates⟩ := scopes none
  refine ⟨plans, h, requests, failures, rates ?_⟩
  intro empty
  exact absurd (requests.symm.trans empty) (by decide)

end Run

end Cadence
