import Cadence.Command.Trial
import Cadence.Proofs.Pace
import Cadence.Proofs.Quantity.Whole
import Cadence.Proofs.Run.Plan

/-!
# The beginning of a course

A configuration is either planned as a whole, one pool for each of its scenarios, or refused with a
fault that lies in the configuration. There is no course of a configuration that is refused, so that
nothing has been asked of the gateway and nothing has been written.
-/

namespace Cadence

open Nearest in
/-- A pool has a worker for each arrival of a second, as far as none are missing: the limit for
pools is not reached by any rate that is accepted. -/
theorem RunConfig.workersFor_eq {config : RunConfig} {rate : Float}
    (held : Pace.inRange rate = true) (few : config.minWorkers ≤ maxWorkers) :
    config.workersFor rate = max config.minWorkers ⌈Quantity.ratOfFloat rate⌉₊ ∧
      config.workersFor rate ≤ maxWorkers := by
  obtain ⟨v, worth, least, most⟩ := Pace.exists_worth held
  have limit : IsNumber (Float.ofNat maxWorkers) 10000 := by
    exact_mod_cast isNumber_natCast (by decide : maxWorkers < 2 ^ 53)
  have needed : Quantity.ceilFloat (Quantity.clampFloat 1 (Float.ofNat maxWorkers) rate) =
      ⌈v⌉₊ := by
    have inside : ¬Float.ofNat maxWorkers < rate := by rwa [limit.lt_iff worth, not_lt]
    rw [Quantity.clampFloat, if_neg inside]
    split_ifs with below
    · have below : v < 1 := (worth.lt_iff isNumber_one).mp below
      have pos : 0 < v := lt_of_lt_of_le (by positivity) least
      rw [isNumber_one.ceilFloat_eq (by norm_num), Nat.ceil_one]
      refine ((Nat.ceil_eq_iff one_ne_zero).mpr ⟨by simpa using pos, ?_⟩).symm
      exact_mod_cast below.le
    · exact worth.ceilFloat_eq (most.trans_lt (by norm_num))
  have most : ⌈v⌉₊ ≤ maxWorkers := Nat.ceil_le.mpr most
  refine ⟨?_, Nat.min_le_right _ _⟩
  rw [workersFor, needed, worth.ratOfFloat_eq, max_comm]
  exact min_eq_left (max_le few most)

namespace Plan

variable {config : RunConfig} {plans : List Plan}

/-- The workers of scenarios that are planned together are numbered without a gap. -/
theorem ofScenarios_workers {firstWorker : Nat} {scenarios : List Scenario}
    (h : ofScenarios config firstWorker scenarios = .ok plans) :
    plans.flatMap (fun plan => List.range' plan.firstWorker plan.workers) =
      List.range' firstWorker (plans.map (·.workers)).sum := by
  induction scenarios generalizing firstWorker plans with
  | nil =>
    cases h
    rfl
  | cons scenario scenarios ih =>
    rw [ofScenarios] at h
    obtain ⟨plan, first, h⟩ := bind_eq_ok.mp h
    obtain ⟨rest, others, h⟩ := bind_eq_ok.mp h
    cases h
    obtain ⟨-, start, -⟩ := ofScenario_eq_ok first
    rw [List.flatMap_cons, ih others, start, List.map_cons, List.sum_cons, List.range'_append_1]

/-- Entries with the keys of a map, in its order, each with the value that is looked up for it, are
the map. -/
theorem eq_of_lookup {entries rates : List (String × Float)}
    (keys : entries.map (·.1) = rates.map (·.1)) (distinct : (rates.map (·.1)).Nodup)
    (values : ∀ entry ∈ entries, rates.lookup entry.1 = some entry.2) : entries = rates := by
  induction rates generalizing entries with
  | nil => simpa using keys
  | cons first rates ih =>
    obtain ⟨entry, entries, rfl⟩ := List.exists_cons_of_ne_nil
      (show entries ≠ [] by rintro rfl; cases keys)
    obtain ⟨key, keys⟩ : entry.1 = first.1 ∧ entries.map (·.1) = rates.map (·.1) :=
      List.cons.inj keys
    obtain ⟨apart, distinct⟩ := List.nodup_cons.mp distinct
    obtain ⟨value, values⟩ := List.forall_mem_cons.mp values
    have same : entry = first := by
      refine Prod.ext key ?_
      rw [List.lookup_cons, key, beq_self_eq_true] at value
      exact (Option.some.inj value).symm
    have rest : entries = rates := by
      refine ih keys distinct fun other member => ?_
      have differs : other.1 ≠ first.1 := by
        intro same
        have known : other.1 ∈ entries.map (·.1) := List.mem_map_of_mem member
        rw [keys, same] at known
        exact apart known
      rw [← values other member, List.lookup_cons, beq_false_of_ne differs]
    rw [same, rest]

/-- If no scenario has two rates, there is one plan for each of the rates. -/
theorem ofConfig_rates (h : ofConfig config = .ok plans)
    (distinct : (config.scenarioRates.map (·.1)).Nodup) :
    plans.map (fun plan => (plan.scenario.name, plan.rate)) = config.scenarioRates := by
  obtain ⟨names, -, -⟩ := ofConfig_eq_ok h
  refine eq_of_lookup (by simpa [Function.comp_def] using names) distinct fun entry member => ?_
  obtain ⟨plan, inside, rfl⟩ := List.mem_map.mp member
  exact (ofConfig_pace h plan inside).1

end Plan

/-- A validation that refuses blames the configuration. -/
theorem RunConfig.isConfig_of_fault? {config : RunConfig} {fault : Fault}
    (h : config.fault? = some fault) : fault.isConfig = true := by
  have invalid {wrong : Bool} {cause : Invalid} {fault : Fault}
      (found : (if wrong then some (Fault.invalid cause) else none) = some fault) :
      fault.isConfig = true := by
    split at found <;> cases found
    rfl
  have threshold {threshold : Threshold} {fault : Fault}
      (found : config.thresholdFault? threshold = some fault) : fault.isConfig = true := by
    unfold thresholdFault? at found
    repeat' split at found
    all_goals cases found
    all_goals rfl
  simp only [fault?, Option.orElse_eq_orElse, Option.orElse_eq_or, Option.or_eq_some_iff] at h
  rcases h with scheme | ⟨-, key | ⟨-, none | ⟨-, rate | ⟨-, zero | ⟨-, workers | ⟨-, refused⟩⟩⟩⟩⟩⟩
  · exact invalid scheme
  · exact invalid key
  · exact invalid none
  · obtain ⟨entry, -, found⟩ := List.exists_of_findSome?_eq_some rate
    exact invalid found
  · obtain ⟨entry, -, found⟩ := List.exists_of_findSome?_eq_some zero
    exact invalid found
  · exact invalid workers
  · obtain ⟨refused, -, found⟩ := List.exists_of_findSome?_eq_some refused
    exact threshold found

/-- A name that is not built in keeps all scenarios from being built. -/
theorem Scenario.all_of_unknown {config : RunConfig}
    (unknown : ¬∀ entry ∈ config.scenarioRates, entry.1 = pingName ∨ entry.1 = putGetName) :
    ∃ name, all config = .error (.invalid (.unknownScenario name)) := by
  unfold all
  generalize config.scenarioRates = rates at unknown
  induction rates with
  | nil => exact absurd nofun unknown
  | cons first rates ih =>
    obtain ⟨first, rate⟩ := first
    rw [List.mapM_cons]
    by_cases known : first = pingName ∨ first = putGetName
    · obtain ⟨scenario, found⟩ := named_of_known config known
      obtain ⟨name, refused⟩ := ih fun others =>
        unknown (List.forall_mem_cons.mpr ⟨known, others⟩)
      refine ⟨name, ?_⟩
      dsimp only
      rw [found, refused]
      rfl
    · obtain ⟨noPing, noPutGet⟩ := not_or.mp known
      refine ⟨first, ?_⟩
      dsimp only
      rw [named, if_neg noPing, if_neg noPutGet]
      rfl

namespace Course

variable {config : RunConfig}

theorem ofConfig_of_refused {fault : Fault} (refused : config.validate = .error fault ∨
      config.validate = .ok () ∧ Plan.ofConfig config = .error fault)
    (instant : Nat) (epoch : Int) (cell : StopCell) (stops : List (Nat × String)) :
    ofConfig config instant epoch cell stops = .error fault := by
  unfold ofConfig
  rcases refused with invalid | ⟨valid, unplanned⟩
  · rw [invalid]
    rfl
  · rw [valid, unplanned]
    rfl

/-- Whether a configuration is accepted and asks for built-in scenarios only. -/
def Honourable (config : RunConfig) : Prop :=
  config.validate = .ok () ∧
    ∀ entry ∈ config.scenarioRates, entry.1 = pingName ∨ entry.1 = putGetName

/-- What keeps a configuration from being planned. -/
theorem exists_refusal (h : ¬Honourable config) : ∃ fault : Fault, fault.isConfig = true ∧
    (config.validate = .error fault ∨
      config.validate = .ok () ∧ Plan.ofConfig config = .error fault ∧
        ∃ name, fault = .invalid (.unknownScenario name)) := by
  cases found : config.fault? with
  | some fault =>
    refine ⟨fault, RunConfig.isConfig_of_fault? found, Or.inl ?_⟩
    rw [RunConfig.validate, found]
  | none =>
    have valid : config.validate = .ok () := by rw [RunConfig.validate, found]
    obtain ⟨name, refused⟩ := Scenario.all_of_unknown fun known => h ⟨valid, known⟩
    refine ⟨.invalid (.unknownScenario name), rfl, Or.inr ⟨valid, ?_, name, rfl⟩⟩
    rw [Plan.ofConfig, refused]
    rfl

/-- A configuration that is accepted and asks for built-in scenarios only is planned: one pool for
each scenario in their order, paced at the configured rate, with a worker for each arrival of a
second but no fewer than configured and never too many, and the workers of all pools numbered from
zero on without a gap. Every course of it begins with nothing asked and nothing written. Any other
configuration is refused with a fault that lies in it and has no course at all; what is accepted is
refused only for a scenario that nobody knows. -/
theorem planned_or_refused (config : RunConfig) :
    (Honourable config → ∃ plans, Plan.ofConfig config = .ok plans ∧
      plans.map (·.scenario.name) = config.scenarioRates.map (·.1) ∧
      ((config.scenarioRates.map (·.1)).Pairwise (· < ·) →
        plans.map (fun plan => (plan.scenario.name, plan.rate)) = config.scenarioRates) ∧
      (∀ plan ∈ plans, config.rateOf? plan.scenario.name = some plan.rate ∧
        plan.workers = max config.minWorkers ⌈Quantity.ratOfFloat plan.rate⌉₊ ∧
        plan.workers ≤ maxWorkers ∧
        Pace.period plan.rate = .ok plan.period ∧ plan.period.isZero = false) ∧
      plans.flatMap (fun plan => List.range' plan.firstWorker plan.workers) =
        List.range (plans.map (·.workers)).sum ∧
      ∀ instant epoch cell stops, ∃ course, ofConfig config instant epoch cell stops = .ok course ∧
        course.run = .start plans config.thresholds cell ∧ course.run.ledger = .empty ∧
        course.run.requests = [] ∧ course.calls = [] ∧ course.errands = []) ∧
    (¬Honourable config → ∃ fault : Fault, fault.isConfig = true ∧
      (config.validate = .error fault ∨
        config.validate = .ok () ∧ Plan.ofConfig config = .error fault ∧
          ∃ name, fault = .invalid (.unknownScenario name)) ∧
      (∀ instant epoch cell stops, ofConfig config instant epoch cell stops = .error fault) ∧
      ∀ stub, Trial.run stub config = .error fault) := by
  constructor
  · rintro ⟨valid, known⟩
    have accepted := RunConfig.validate_eq_ok_iff.mp valid
    obtain ⟨plans, planned⟩ := Plan.ofConfig_of_accepted accepted known
    refine ⟨plans, planned, (Plan.ofConfig_eq_ok planned).1, fun ordered => ?_,
      fun plan member => ?_, ?_, fun instant epoch cell stops => ?_⟩
    · exact Plan.ofConfig_rates planned (ordered.imp fun before => before.ne)
    · obtain ⟨rate, period, workers⟩ := Plan.mem_ofConfig planned plan member
      obtain ⟨held, -⟩ := Pace.period_eq_ok_iff.mp period
      obtain ⟨size, most⟩ := RunConfig.workersFor_eq held accepted.workers.2
      exact ⟨rate, workers.trans size, workers.trans_le most, period, Pace.isZero_period period⟩
    · obtain ⟨scenarios, -, each⟩ := bind_eq_ok.mp planned
      rw [Plan.ofScenarios_workers each, List.range_eq_range']
    · exact ⟨_, bind_eq_ok.mpr ⟨(), valid, bind_eq_ok.mpr ⟨plans, planned, rfl⟩⟩, rfl, rfl, rfl,
        rfl, rfl⟩
  · intro refused
    obtain ⟨fault, blamed, cause⟩ := exists_refusal refused
    have none := ofConfig_of_refused (cause.imp_right fun found => ⟨found.1, found.2.1⟩)
    refine ⟨fault, blamed, cause, none, fun stub => ?_⟩
    rw [Trial.run, none]
    rfl

/-- The default configuration is planned, and one with a scenario that nobody knows is refused. -/
theorem planned_or_refused_default :
    (∃ plans, Plan.ofConfig RunConfig.default = .ok plans ∧
      plans.map (fun plan => (plan.scenario.name, plan.rate)) =
        [(pingName, 50), (putGetName, 25)]) ∧
    ∃ fault : Fault, fault.isConfig = true ∧ ∀ instant epoch cell stops,
      ofConfig { RunConfig.default with scenarioRates := [("warmup", 1)], thresholds := [] }
        instant epoch cell stops = .error fault := by
  constructor
  · obtain ⟨plans, planned, -, rates, -⟩ :=
      (planned_or_refused RunConfig.default).1 ⟨rfl, by decide⟩
    exact ⟨plans, planned, rates (by decide)⟩
  · obtain ⟨fault, blamed, -, refused, -⟩ := (planned_or_refused
      { RunConfig.default with scenarioRates := [("warmup", 1)], thresholds := [] }).2
        fun honourable => absurd honourable.2 (by decide)
    exact ⟨fault, blamed, refused⟩

end Course

end Cadence
