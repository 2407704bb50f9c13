import Cadence.Proofs.Executor.Replies
import Cadence.Proofs.Ledger.Judge
import Cadence.Proofs.Run.Pairs
import Cadence.Proofs.Run.Stop

/-!
# Healthy and failing gateways

What the default thresholds say of a gateway. Everything that a run writes down reflects a reply, so
that the replies decide: if all of them are as expected and fast, a run passes as soon as it has
completed an iteration of each scenario; if one kind of request is never answered as expected, no
run passes, whatever the others are answered and in whatever order.
-/

namespace Cadence

/-- The statuses that the built-in scenarios expect in reply to a request. -/
def Request.expected : Request → List Nat
  | .ping | .get _ => [200]
  | .put .. => [200, 201]

/-- The built-in scenario that makes a request. -/
def Request.scenario : Request → String
  | .ping => pingName
  | .put .. | .get _ => putGetName

/-- Whether a request was answered with an expected status. -/
def Exchange.isExpected (exchange : Exchange) : Bool := exchange.2.isOneOf exchange.1.expected

/-- What an outcome holds was read off these replies, in their order. -/
structure Outcome.Reflects (outcome : Outcome) (exchanged : List Exchange) : Prop where
  checks : outcome.checks.map (·.passed) = exchanged.map Exchange.isExpected
  durations : outcome.samples.map (·.duration) = exchanged.map (·.2.elapsed)

/-- What an iteration of a built-in scenario has asked for. -/
structure Scenario.Asks (name : String) (exchanged : List Exchange) : Prop where
  few : exchanged.length ≤ 2
  /-- No request of the scenario was left out. -/
  all : ∀ request : Request, request.scenario = name →
    ∃ exchange ∈ exchanged, exchange.1.label = request.label

namespace Scenario

variable {context : IterationContext} {exchanged : List Exchange} {outcome : Outcome}

theorem comes_ping (comes : (pingBody context).Comes exchanged outcome) :
    outcome.Reflects exchanged ∧ Asks pingName exchanged := by
  cases comes with
  | ask rest =>
    cases rest with
    | done =>
      refine ⟨⟨rfl, rfl⟩, by simp, fun request made => ?_⟩
      cases request with
      | ping => exact ⟨_, List.mem_cons_self .., rfl⟩
      | put key value ttl => exact absurd made (by decide : putGetName ≠ pingName)
      | get key => exact absurd made (by decide : putGetName ≠ pingName)

theorem comes_putGet {key value : String} {ttl : Duration}
    (comes : (putGetBody context key value ttl).Comes exchanged outcome) :
    outcome.Reflects exchanged ∧ Asks putGetName exchanged := by
  cases comes with
  | ask written =>
    cases written with
    | ask answered =>
      cases answered with
      | done =>
        refine ⟨⟨rfl, rfl⟩, by simp, fun request made => ?_⟩
        cases request with
        | ping => exact absurd made (by decide : pingName ≠ putGetName)
        | put key value ttl => exact ⟨_, List.mem_cons_self .., rfl⟩
        | get key => exact ⟨_, List.mem_cons_of_mem _ (List.mem_cons_self ..), rfl⟩

/-- What an iteration of a built-in scenario ends with reflects the replies to its requests. -/
theorem BuiltIn.comes {config : RunConfig} {scenario : Scenario} (h : BuiltIn config scenario)
    {millis : Int} (comes : (scenario.body context millis).Comes exchanged outcome) :
    outcome.Reflects exchanged ∧ Asks scenario.name exchanged := by
  rcases h with rfl | rfl
  · exact comes_ping comes
  · exact comes_putGet comes

end Scenario

/-- A record of a run is a dropped arrival, or an iteration that reflects replies of the run. -/
inductive Record.Reflects (replies : List Exchange) : Record → Prop where
  | dropped (name : String) : Record.Reflects replies (.dropped name)
  | iteration {name : String} {outcome : Outcome} {exchanged : List Exchange}
      (reflects : outcome.Reflects exchanged) (asks : Scenario.Asks name exchanged)
      (replied : exchanged ⊆ replies) : Record.Reflects replies (.iteration name outcome)

/-- Of two lists that look alike, what is seen of one is seen of the other. -/
theorem exists_of_map_eq {α β γ : Type} {f : α → γ} {g : β → γ} {first : List α} {second : List β}
    (alike : first.map f = second.map g) {x : α} (member : x ∈ first) :
    ∃ y ∈ second, g y = f x := by
  have seen : f x ∈ first.map f := List.mem_map_of_mem member
  rw [alike] at seen
  exact List.mem_map.mp seen

namespace Record.Reflects

variable {replies : List Exchange} {record : Record}

/-- Every check that is written down is the verdict on a reply. -/
theorem check (h : record.Reflects replies) :
    ∀ check ∈ record.checks, ∃ exchange ∈ replies, exchange.isExpected = check.passed := by
  intro check made
  cases h with
  | dropped name => cases made
  | iteration reflects asks replied =>
    obtain ⟨exchange, exchanged, same⟩ := exists_of_map_eq reflects.checks made
    exact ⟨exchange, replied exchanged, same⟩

/-- Every sample that is written down took as long as a reply. -/
theorem sample (h : record.Reflects replies) :
    ∀ sample ∈ record.samples, ∃ exchange ∈ replies, exchange.2.elapsed = sample.duration := by
  intro sample made
  cases h with
  | dropped name => cases made
  | iteration reflects asks replied =>
    obtain ⟨exchange, exchanged, same⟩ := exists_of_map_eq reflects.durations made
    exact ⟨exchange, replied exchanged, same⟩

end Record.Reflects

/-- If all replies are as expected, all checks pass. -/
theorem Ledger.passes_of_expected {replies : List Exchange} {records : List Record}
    (expected : ∀ exchange ∈ replies, exchange.isExpected = true)
    (reflected : ∀ record ∈ records, record.Reflects replies) (scope : Option String) :
    (ofRecords records).total scope (·.checksPassed) =
      (ofRecords records).total scope (·.checksTotal) := by
  rw [passes_ofRecords, checks_ofRecords]
  refine List.countP_eq_length.mpr fun check made => ?_
  obtain ⟨record, written, seen⟩ := List.mem_flatMap.mp made
  obtain ⟨exchange, brought, same⟩ :=
    (reflected record written).check check (List.mem_of_mem_filter seen)
  exact same.symm.trans (expected exchange brought)

/-- What a run writes down of a gateway that answers as expected, and fast, is flawless. -/
theorem Ledger.flawless_of_healthy {replies : List Exchange} {records : List Record}
    (paired : ∀ record ∈ records, record.Paired)
    (reflected : ∀ record ∈ records, record.Reflects replies)
    (healthy : ∀ exchange ∈ replies,
      exchange.isExpected = true ∧ exchange.2.elapsed.nanos < 500000000) :
    (ofRecords records).Flawless := by
  have checks := passes_of_expected (fun exchange brought => (healthy exchange brought).1) reflected
  refine ⟨?_, ?_, checks⟩
  · have pairs := pairedIn_ofRecords paired none
    have verdicts := pairs.verdicts
    rw [checks, pairs.checks] at verdicts
    omega
  · intro duration seen
    obtain ⟨sample, observed, rfl⟩ :=
      List.mem_map.mp ((durations_ofRecords none records).subset seen)
    obtain ⟨record, written, inside⟩ := List.mem_flatMap.mp observed
    obtain ⟨exchange, brought, same⟩ :=
      (reflected record written).sample sample (List.mem_of_mem_filter inside)
    rw [← same]
    exact (healthy exchange brought).2

section Refused

/-- If half of each part or less is counted, so is half of the whole or less. -/
theorem two_mul_countP_flatMap_le {α β : Type} {f : α → List β} {p : β → Bool} {items : List α}
    (each : ∀ item ∈ items, 2 * (f item).countP p ≤ (f item).length) :
    2 * (items.flatMap f).countP p ≤ (items.flatMap f).length := by
  induction items with
  | nil => simp
  | cons item items ih =>
    obtain ⟨first, rest⟩ := List.forall_mem_cons.mp each
    have := ih rest
    simp only [List.flatMap_cons, List.countP_append, List.length_append]
    omega

variable {replies : List Exchange} {refused : Request}
  (never : ∀ exchange ∈ replies, exchange.1.label = refused.label → exchange.isExpected = false)

include never

/-- Of two requests or fewer, one of which is refused, half are answered as expected at most. -/
theorem Scenario.Asks.half {name : String} {exchanged : List Exchange}
    (h : Asks name exchanged) (own : refused.scenario = name) (replied : exchanged ⊆ replies) :
    2 * exchanged.countP Exchange.isExpected ≤ exchanged.length := by
  obtain ⟨exchange, member, same⟩ := h.all refused own
  have few := h.few
  have missed : exchanged.countP Exchange.isExpected ≠ exchanged.length := fun all => by
    have := List.countP_eq_length.mp all exchange member
    rw [never exchange (replied member) same] at this
    cases this
  have := List.countP_le_length (p := Exchange.isExpected) (l := exchanged)
  omega

theorem Record.Reflects.half {record : Record} (h : record.Reflects replies)
    (paired : record.Paired) :
    2 * (record.checksIn (some refused.scenario)).countP (·.passed) ≤
      (record.checksIn (some refused.scenario)).length := by
  cases h with
  | dropped name => exact Nat.zero_le _
  | @iteration name outcome exchanged reflects asks replied =>
    rw [paired.observes.checksIn]
    split
    next own =>
      have same : refused.scenario = name := by simpa [Ledger.inScope] using own
      have half := asks.half never same replied
      have passed := congrArg (List.countP id) reflects.checks
      have count := congrArg List.length reflects.checks
      simp only [List.countP_map, List.length_map, Function.id_comp] at passed count
      omega
    next => exact Nat.zero_le _

/-- If a request is never answered as expected, half of the checks of its scenario pass at most. -/
theorem Ledger.half_of_refused {records : List Record}
    (paired : ∀ record ∈ records, record.Paired)
    (reflected : ∀ record ∈ records, record.Reflects replies) :
    2 * (ofRecords records).total (some refused.scenario) (·.checksPassed) ≤
      (ofRecords records).total (some refused.scenario) (·.checksTotal) := by
  rw [passes_ofRecords, checks_ofRecords]
  exact two_mul_countP_flatMap_le fun record written =>
    (reflected record written).half never (paired record written)

end Refused

section Verdict

variable {replies : List Exchange} {records : List Record}
  (paired : ∀ record ∈ records, record.Paired)
  (reflected : ∀ record ∈ records, record.Reflects replies)
  (few : (Ledger.ofRecords records).requests none < 2 ^ 64)

include paired few in
theorem Ledger.checks_lt (scope : Option String) :
    (ofRecords records).total scope (·.checksTotal) < 2 ^ 64 := by
  rw [(pairedIn_ofRecords paired scope).checks]
  exact (total_le_all _ scope _).trans_lt few

include paired reflected few

/-- A gateway that answers as expected, and fast, satisfies the default thresholds as soon as there
is an iteration of each scenario. -/
theorem Ledger.passed_of_healthy (healthy : ∀ exchange ∈ replies,
      exchange.isExpected = true ∧ exchange.2.elapsed.nanos < 500000000) :
    ((ofRecords records).evaluate RunConfig.defaultThresholds).passed = true ↔
      (ofRecords records).iterations (some pingName) ≠ 0 ∧
        (ofRecords records).iterations (some putGetName) ≠ 0 := by
  have flawless := flawless_of_healthy paired reflected healthy
  have lengths := length_durations none records
  have pings := requests_eq_mul_iterations paired fun _ => Record.Paired.requests_ping
  have putGets := requests_eq_mul_iterations paired fun _ => Record.Paired.requests_putGet
  have within := total_le_all (ofRecords records) (some pingName) (·.requests)
  have some : (ofRecords records).durations none ≠ [] ↔ (ofRecords records).requests none ≠ 0 := by
    rw [← lengths, ne_eq, ne_eq, List.length_eq_zero_iff]
  rw [flawless.passed_iff few (lengths ▸ few) (checks_lt paired few), some,
    (pairedIn_ofRecords paired _).checks, (pairedIn_ofRecords paired _).checks]
  change (ofRecords records).requests (.some pingName) ≤ (ofRecords records).requests none at within
  omega

/-- A gateway that never answers some request as expected does not satisfy them. -/
theorem Ledger.not_passed_of_refused {refused : Request} (never : ∀ exchange ∈ replies,
      exchange.1.label = refused.label → exchange.isExpected = false) :
    ((ofRecords records).evaluate RunConfig.defaultThresholds).passed = false := by
  refine not_passed_of_half ?_ (half_of_refused never paired reflected)
    (checks_lt paired few _)
  cases refused with
  | ping => exact Or.inl rfl
  | put key value ttl => exact Or.inr rfl
  | get key => exact Or.inr rfl

end Verdict

namespace Run

/-- The replies along a sequence of events, each with its request. -/
def replies (run : Run) (events : List RunEvent) : List Exchange :=
  (run.history Executor.answer? events).map (·.2)

/-- What a run of configured scenarios writes down reflects its replies. -/
theorem reflected_records {config : RunConfig} {plans : List Plan}
    (h : Plan.ofConfig config = .ok plans) (thresholds : List Threshold) (cell : StopCell)
    (events : List RunEvent) :
    ∀ record ∈ ((start plans thresholds cell).deeds events).filterMap
      (start plans thresholds cell).record?,
        record.Reflects ((start plans thresholds cell).replies events) := by
  intro record written
  obtain ⟨lane, plan, planned, rfl | ⟨slot, outcome, completed, rfl⟩⟩ := deed_of_record written
  · exact .dropped _
  · obtain ⟨-, builtIn, -⟩ := Plan.ofConfig_eq_ok h
    obtain ⟨own, -, noted⟩ := lane_of_planned planned thresholds cell events
    rw [deeds, noted] at completed
    obtain ⟨serial, millis, exchanged, comes, replied⟩ := Executor.comes_of_completed completed
    obtain ⟨reflects, asks⟩ := (builtIn plan (List.mem_of_getElem? planned)).comes comes
    refine .iteration reflects asks fun exchange member => ?_
    have brought : exchange ∈ (Executor.subscribe plan cell).history Executor.answer? own :=
      replied member
    rw [← noted] at brought
    exact List.mem_map_of_mem (mem_ofLane.mp brought)

/-- The executors have completed iterations of all scenarios if the ledger holds some of each. -/
theorem Agrees.all_completed {run : Run} (h : Agrees (·.completed) (·.iterations) run) :
    (∀ stats ∈ run.executors.map statsOf, 1 ≤ stats.completed) ↔
      ∀ name ∈ run.names, run.ledger.iterations (some name) ≠ 0 := by
  have agreed : ∀ executor ∈ run.executors,
      run.ledger.iterations (some executor.plan.scenario.name) = (statsOf executor).completed := by
    intro executor member
    obtain ⟨lane, found⟩ := List.mem_iff_getElem?.mp member
    exact h.each lane executor found
  simp only [names, List.forall_mem_map, Nat.one_le_iff_ne_zero]
  exact forall₂_congr fun executor member => by rw [agreed executor member]

/-- If no threshold is fail-fast and nobody asks for a stop, the verdict is that of the ledger. -/
theorem passed_of_patient (plans : List Plan) {thresholds : List Threshold} {cell : StopCell}
    (patient : ∀ threshold ∈ thresholds, threshold.abortOnFail = false)
    (free : cell.reason = none) {events : List RunEvent}
    (unasked : ∀ reason, .stop reason ∉ events) :
    let run := (start plans thresholds cell).applyAll events
    (run.verdict thresholds).passed = (run.ledger.evaluate thresholds).passed := by
  intro run
  have silent : (start plans thresholds cell).stopRequests events = [] :=
    stopRequests_eq_nil rfl unasked fun before after _ threshold member value crosses => by
      have failFast := crosses.failFast
      rw [patient threshold member] at failFast
      cases failFast
  have reason : run.stop.reason = none := by
    rw [show run.stop.reason = _ from reason_applyAll _ events, silent]
    exact Option.or_eq_none_iff.mpr ⟨free, rfl⟩
  show ((run.ledger.evaluate thresholds).passed && run.stop.reason.isNone) = _
  rw [reason]
  exact Bool.and_true _

/-- What the default thresholds say of a gateway, for both scenarios together, in every order of
events and if nobody asks for a stop.

If every reply has an expected status and took less than half a second, the run passes exactly if
each of the two scenarios has completed an iteration. If one of the requests, be it the probe, the
write or the read, is never answered with an expected status, the run does not pass. The counters of
a ledger have 64 binary digits. -/
theorem verdict_of_gateway {config : RunConfig} {plans : List Plan}
    (h : Plan.ofConfig config = .ok plans)
    (both : config.scenarioRates.map (·.1) = [pingName, putGetName])
    (default : config.thresholds = RunConfig.defaultThresholds) {cell : StopCell}
    (free : cell.reason = none) {events : List RunEvent}
    (unasked : ∀ reason, .stop reason ∉ events)
    (few : ((start plans config.thresholds cell).applyAll events).ledger.requests none < 2 ^ 64) :
    let start := Run.start plans config.thresholds cell
    let run := start.applyAll events
    ∀ runId startedAt elapsed, let report := run.report config.thresholds runId startedAt elapsed
      report.scenarios.map (·.scenario) = [pingName, putGetName] ∧
      ((∀ exchange ∈ start.replies events,
          exchange.isExpected = true ∧ exchange.2.elapsed.nanos < 500000000) →
        (report.passed = true ↔ ∀ stats ∈ report.scenarios, 1 ≤ stats.completed)) ∧
      ∀ refused : Request, (∀ exchange ∈ start.replies events,
          exchange.1.label = refused.label → exchange.isExpected = false) →
        report.passed = false := by
  intro start run runId startedAt elapsed report
  obtain ⟨records, written, paired, reflected⟩ : ∃ records, run.ledger = .ofRecords records ∧
      (∀ record ∈ records, record.Paired) ∧
      ∀ record ∈ records, record.Reflects (start.replies events) :=
    ⟨_, ledger_applyAll start events, paired_records h config.thresholds cell events,
      reflected_records h config.thresholds cell events⟩
  have few : (Ledger.ofRecords records).requests none < 2 ^ 64 := written ▸ few
  have names : run.names = [pingName, putGetName] := by
    rw [← both, ← names_start h config.thresholds cell]
    exact names_applyAll start events
  have agrees : Agrees (·.completed) (·.iterations) run := by
    refine agrees_applyAll twin_completed (agrees_start twin_completed _ _ _) ?_ events
    rw [names_start h, both]
    decide
  have verdict : report.passed =
      ((Ledger.ofRecords records).evaluate RunConfig.defaultThresholds).passed := by
    have patient : ∀ threshold ∈ config.thresholds, threshold.abortOnFail = false := by
      simp [default, RunConfig.defaultThresholds]
    rw [← written, ← default]
    exact passed_of_patient plans patient free unasked
  refine ⟨?_, fun healthy => ?_, fun refused never => ?_⟩
  · rw [← names]
    simp [report, Run.report, statsOf, Run.names, Function.comp_def]
  · rw [verdict, Ledger.passed_of_healthy paired reflected few healthy, ← written]
    refine Iff.trans ?_ agrees.all_completed.symm
    simp [names]
  · rw [verdict]
    exact Ledger.not_passed_of_refused paired reflected few never

/-- One iteration of each scenario, with all replies as expected. -/
def welcomes : List RunEvent :=
  [.step 0 .enter, .step 0 .tick, .step 1 .enter, .step 1 .tick, .task 0 0 (.begin 7),
    .task 1 50 (.begin 7), .task 0 0 (.answer (.ofStatus 200 .zero)),
    .task 1 50 (.answer (.ofStatus 201 (.ofMillis 499))),
    .task 1 50 (.answer (.ofStatus 200 .zero)), .task 1 50 .wake, .task 0 0 .wake,
    .step 1 (.join 50), .step 0 (.join 0)]

/-- The same iterations pass when they are answered, and fail when the write is refused. -/
theorem verdict_of_gateway_default : ∃ plans, Plan.ofConfig RunConfig.default = .ok plans ∧
    RunConfig.default.scenarioRates.map (·.1) = [pingName, putGetName] ∧
    RunConfig.default.thresholds = RunConfig.defaultThresholds ∧
    let start := Run.start plans RunConfig.default.thresholds (.initial none)
    let report := fun events => (start.applyAll events).report RunConfig.default.thresholds ⟨1⟩
      ⟨0, 0⟩ (.ofSecs 3)
    (∀ reason, .stop reason ∉ welcomes ∧ .stop reason ∉ refusals) ∧
    (start.applyAll welcomes).ledger.requests none < 2 ^ 64 ∧
    (start.applyAll refusals).ledger.requests none < 2 ^ 64 ∧
    (∀ exchange ∈ start.replies welcomes,
      exchange.isExpected = true ∧ exchange.2.elapsed.nanos < 500000000) ∧
    (report welcomes).passed = true ∧
    (∀ exchange ∈ start.replies refusals,
      exchange.1.label = (Request.put "" "" .zero).label → exchange.isExpected = false) ∧
    (report refusals).passed = false := by
  have computed : (Plan.ofConfig RunConfig.default).toOption.map (fun plans =>
      let start := Run.start plans RunConfig.default.thresholds (.initial none)
      let run := start.applyAll welcomes
      ((start.replies welcomes).all fun exchange =>
          exchange.isExpected && exchange.2.elapsed.nanos < 500000000,
        run.ledger.requests none,
        (run.report RunConfig.default.thresholds ⟨1⟩ ⟨0, 0⟩ (.ofSecs 3)).scenarios.all
          (1 ≤ ·.completed),
        (start.replies refusals).all fun exchange =>
          exchange.1.label != (Request.put "" "" .zero).label || !exchange.isExpected,
        (start.applyAll refusals).ledger.requests none)) = some (true, 3, true, true, 3) := by
    decide +kernel
  obtain ⟨plans, h⟩ := Plan.ofConfig_default
  rw [h] at computed
  injection computed with computed
  simp only [Prod.mk.injEq, List.all_eq_true, Bool.and_eq_true, Bool.or_eq_true, bne_iff_ne,
    Bool.not_eq_true', decide_eq_true_eq] at computed
  obtain ⟨healthy, requests, completed, refused, requests'⟩ := computed
  have unasked : ∀ reason, .stop reason ∉ welcomes ∧ .stop reason ∉ refusals := by
    simp [welcomes, refusals]
  have few : 3 < 2 ^ 64 := by norm_num
  have named : RunConfig.default.scenarioRates.map (·.1) = [pingName, putGetName] := rfl
  have refused : ∀ exchange ∈ (start plans RunConfig.default.thresholds (.initial none)).replies
      refusals, exchange.1.label = (Request.put "" "" .zero).label → exchange.isExpected = false :=
    fun exchange brought same => (refused exchange brought).resolve_left (· same)
  obtain ⟨-, passes, -⟩ := verdict_of_gateway h named rfl rfl (fun reason => (unasked reason).1)
    (requests.trans_lt few) ⟨1⟩ ⟨0, 0⟩ (.ofSecs 3)
  obtain ⟨-, -, fails⟩ := verdict_of_gateway h named rfl rfl (fun reason => (unasked reason).2)
    (requests'.trans_lt few) ⟨1⟩ ⟨0, 0⟩ (.ofSecs 3)
  exact ⟨plans, h, named, rfl, unasked, requests.trans_lt few, requests'.trans_lt few, healthy,
    (passes healthy).mpr completed, refused, fails (.put "" "" .zero) refused⟩

end Run

end Cadence
