import Cadence.Proofs.Config
import Cadence.Proofs.Pace
import Cadence.Proofs.Reading
import Cadence.Proofs.Scenario
import Cadence.Run.Plan

/-!
# Planned pools

What planning a configuration comes to: one pool for each configured scenario, in the order of the
configuration, and the workers of different pools have different numbers.
-/

namespace Cadence

namespace Scenario

theorem named_eq_ok {config : RunConfig} {name : String} {scenario : Scenario}
    (h : named config name = .ok scenario) :
    scenario.name = name ∧ BuiltIn config scenario := by
  unfold named at h
  split at h
  next same =>
    cases h
    exact ⟨same.symm, Or.inl rfl⟩
  next =>
    split at h
    next same =>
      cases h
      exact ⟨same.symm, Or.inr rfl⟩
    next => cases h

theorem mapM_named_eq_ok {config : RunConfig} {rates : List (String × Float)}
    {scenarios : List Scenario}
    (h : (rates.mapM fun (name, _) => named config name) = .ok scenarios) :
    scenarios.map (·.name) = rates.map (·.1) ∧ ∀ scenario ∈ scenarios, BuiltIn config scenario := by
  induction rates generalizing scenarios with
  | nil =>
    cases h
    simp
  | cons rate rates ih =>
    rw [List.mapM_cons] at h
    obtain ⟨scenario, first, h⟩ := bind_eq_ok.mp h
    obtain ⟨rest, others, h⟩ := bind_eq_ok.mp h
    cases h
    obtain ⟨name, builtIn⟩ := named_eq_ok first
    obtain ⟨names, builtIns⟩ := ih others
    refine ⟨by simp [name, names], ?_⟩
    intro other member
    rcases List.mem_cons.mp member with rfl | member
    · exact builtIn
    · exact builtIns other member

theorem all_eq_ok {config : RunConfig} {scenarios : List Scenario}
    (h : all config = .ok scenarios) :
    scenarios.map (·.name) = config.scenarioRates.map (·.1) ∧
      ∀ scenario ∈ scenarios, BuiltIn config scenario :=
  mapM_named_eq_ok h

/-- The scenarios that are built in are known by their names. -/
theorem named_of_known (config : RunConfig) {name : String}
    (known : name = pingName ∨ name = putGetName) :
    ∃ scenario, named config name = .ok scenario := by
  unfold named
  split
  · exact ⟨_, rfl⟩
  · rw [if_pos (known.resolve_left ‹_›)]
    exact ⟨_, rfl⟩

theorem all_of_known {config : RunConfig}
    (known : ∀ rate ∈ config.scenarioRates, rate.1 = pingName ∨ rate.1 = putGetName) :
    ∃ scenarios, all config = .ok scenarios := by
  unfold all
  generalize config.scenarioRates = rates at known
  induction rates with
  | nil => exact ⟨[], rfl⟩
  | cons rate rates ih =>
    obtain ⟨first, others⟩ := List.forall_mem_cons.mp known
    obtain ⟨scenario, found⟩ := named_of_known config first
    obtain ⟨scenarios, rest⟩ := ih others
    refine ⟨scenario :: scenarios, ?_⟩
    rw [List.mapM_cons]
    exact bind_eq_ok.mpr ⟨scenario, found, bind_eq_ok.mpr ⟨scenarios, rest, rfl⟩⟩

end Scenario

namespace Plan

/-- What the plan of a scenario says. -/
theorem ofScenario_eq_ok {config : RunConfig} {firstWorker : Nat} {scenario : Scenario}
    {plan : Plan} (h : ofScenario config firstWorker scenario = .ok plan) :
    plan.scenario = scenario ∧ plan.firstWorker = firstWorker ∧
      config.rateOf? plan.scenario.name = some plan.rate ∧
      Pace.period plan.rate = .ok plan.period ∧ plan.workers = config.workersFor plan.rate := by
  unfold ofScenario at h
  cases found : config.rateOf? scenario.name with
  | none =>
    rw [found] at h
    cases h
  | some configured =>
    rw [found] at h
    obtain ⟨rate, same, h⟩ := bind_eq_ok.mp h
    cases same
    obtain ⟨period, paced, h⟩ := bind_eq_ok.mp h
    cases h
    exact ⟨rfl, rfl, found, paced, rfl⟩

/-- Each pool is numbered behind the pools before it. -/
theorem ofScenarios_eq_ok {config : RunConfig} {firstWorker : Nat} {scenarios : List Scenario}
    {plans : List Plan} (h : ofScenarios config firstWorker scenarios = .ok plans) :
    plans.map (·.scenario) = scenarios ∧ (∀ plan ∈ plans, firstWorker ≤ plan.firstWorker) ∧
      plans.Pairwise fun before after =>
        before.firstWorker + before.workers ≤ after.firstWorker := by
  induction scenarios generalizing firstWorker plans with
  | nil =>
    cases h
    simp
  | cons scenario scenarios ih =>
    rw [ofScenarios] at h
    obtain ⟨plan, first, h⟩ := bind_eq_ok.mp h
    obtain ⟨rest, others, h⟩ := bind_eq_ok.mp h
    cases h
    obtain ⟨same, start, -⟩ := ofScenario_eq_ok first
    obtain ⟨scenarios, behind, apart⟩ := ih others
    refine ⟨by simp [same, scenarios], ?_, List.pairwise_cons.mpr ⟨?_, apart⟩⟩
    · intro other member
      rcases List.mem_cons.mp member with rfl | member
      · exact Nat.le_of_eq start.symm
      · have := behind other member
        omega
    · intro other member
      rw [← start] at behind
      exact behind other member

/-- The plans of a configuration: what they drive, and that no worker belongs to two of them. -/
theorem ofConfig_eq_ok {config : RunConfig} {plans : List Plan} (h : ofConfig config = .ok plans) :
    plans.map (·.scenario.name) = config.scenarioRates.map (·.1) ∧
      (∀ plan ∈ plans, Scenario.BuiltIn config plan.scenario) ∧
      plans.Pairwise fun before after =>
        before.firstWorker + before.workers ≤ after.firstWorker := by
  obtain ⟨scenarios, all, h⟩ := bind_eq_ok.mp h
  obtain ⟨names, builtIn⟩ := Scenario.all_eq_ok all
  obtain ⟨rfl, -, apart⟩ := ofScenarios_eq_ok h
  refine ⟨by simpa [Function.comp_def] using names, ?_, apart⟩
  intro plan member
  exact builtIn plan.scenario (List.mem_map_of_mem member)

/-- A scenario is planned at its rate if the pacing clock can hold it. -/
theorem ofScenario_of_rate {config : RunConfig} {scenario : Scenario} {rate : Float}
    (configured : config.rateOf? scenario.name = some rate) (held : Pace.inRange rate = true)
    (firstWorker : Nat) : ∃ plan, ofScenario config firstWorker scenario = .ok plan := by
  have paced := Pace.period_of_inRange held
  refine ⟨⟨scenario, rate, .ofSeconds (1 / rate), config.workersFor rate, firstWorker⟩, ?_⟩
  rw [ofScenario, configured]
  exact bind_eq_ok.mpr ⟨rate, rfl, bind_eq_ok.mpr ⟨_, paced, rfl⟩⟩

theorem ofScenarios_of_rates {config : RunConfig} {scenarios : List Scenario}
    (rates : ∀ scenario ∈ scenarios, ∃ rate, config.rateOf? scenario.name = some rate ∧
      Pace.inRange rate = true) (firstWorker : Nat) :
    ∃ plans, ofScenarios config firstWorker scenarios = .ok plans := by
  induction scenarios generalizing firstWorker with
  | nil => exact ⟨[], rfl⟩
  | cons scenario scenarios ih =>
    obtain ⟨⟨rate, configured, held⟩, others⟩ := List.forall_mem_cons.mp rates
    obtain ⟨plan, first⟩ := ofScenario_of_rate configured held firstWorker
    obtain ⟨plans, rest⟩ := ih others (firstWorker + plan.workers)
    exact ⟨plan :: plans, bind_eq_ok.mpr ⟨plan, first, bind_eq_ok.mpr ⟨plans, rest, rfl⟩⟩⟩

/-- The rate of a scenario for which one is configured. -/
theorem rateOf?_of_mem {config : RunConfig} {name : String}
    (member : name ∈ config.scenarioRates.map (·.1)) :
    ∃ rate, config.rateOf? name = some rate ∧ (name, rate) ∈ config.scenarioRates := by
  unfold RunConfig.rateOf?
  generalize config.scenarioRates = rates at member
  induction rates with
  | nil => cases member
  | cons first rates ih =>
    obtain ⟨other, rate⟩ := first
    rw [List.lookup_cons]
    by_cases same : name = other
    · subst same
      exact ⟨rate, by simp, List.mem_cons_self ..⟩
    · obtain ⟨found, configured, inside⟩ := ih ((List.mem_cons.mp member).resolve_left same)
      have differs : (name == other) = false := by simpa using same
      exact ⟨found, by rw [differs]; exact configured, List.mem_cons_of_mem _ inside⟩

/-- A configuration that is accepted and asks for built-in scenarios only can be planned. -/
theorem ofConfig_of_accepted {config : RunConfig} (accepted : config.Accepted)
    (known : ∀ rate ∈ config.scenarioRates, rate.1 = pingName ∨ rate.1 = putGetName) :
    ∃ plans, ofConfig config = .ok plans := by
  obtain ⟨scenarios, all⟩ := Scenario.all_of_known known
  have names := (Scenario.all_eq_ok all).1
  have rates : ∀ scenario ∈ scenarios, ∃ rate, config.rateOf? scenario.name = some rate ∧
      Pace.inRange rate = true := by
    intro scenario member
    have named : scenario.name ∈ config.scenarioRates.map (·.1) := by
      rw [← names]
      exact List.mem_map_of_mem member
    obtain ⟨rate, configured, inside⟩ := rateOf?_of_mem named
    exact ⟨rate, configured, accepted.rates (scenario.name, rate) inside⟩
  obtain ⟨plans, planned⟩ := ofScenarios_of_rates rates 0
  exact ⟨plans, bind_eq_ok.mpr ⟨scenarios, all, planned⟩⟩

/-- Each plan is that of its scenario. -/
theorem mem_ofScenarios {config : RunConfig} {firstWorker : Nat} {scenarios : List Scenario}
    {plans : List Plan} (h : ofScenarios config firstWorker scenarios = .ok plans) :
    ∀ plan ∈ plans, ∃ first, ofScenario config first plan.scenario = .ok plan := by
  induction scenarios generalizing firstWorker plans with
  | nil =>
    cases h
    simp
  | cons scenario scenarios ih =>
    rw [ofScenarios] at h
    obtain ⟨plan, first, h⟩ := bind_eq_ok.mp h
    obtain ⟨rest, others, h⟩ := bind_eq_ok.mp h
    cases h
    refine List.forall_mem_cons.mpr ⟨⟨firstWorker, ?_⟩, ih others⟩
    rw [(ofScenario_eq_ok first).1]
    exact first

/-- Every plan of a configuration has the configured rate, the time between two arrivals at that
rate and as many workers as that rate needs. -/
theorem mem_ofConfig {config : RunConfig} {plans : List Plan} (h : ofConfig config = .ok plans) :
    ∀ plan ∈ plans, config.rateOf? plan.scenario.name = some plan.rate ∧
      Pace.period plan.rate = .ok plan.period ∧ plan.workers = config.workersFor plan.rate := by
  obtain ⟨scenarios, -, h⟩ := bind_eq_ok.mp h
  intro plan member
  obtain ⟨first, planned⟩ := mem_ofScenarios h plan member
  exact (ofScenario_eq_ok planned).2.2

/-- Every plan of a configuration paces its scenario at the configured rate. -/
theorem ofConfig_pace {config : RunConfig} {plans : List Plan} (h : ofConfig config = .ok plans) :
    ∀ plan ∈ plans, config.rateOf? plan.scenario.name = some plan.rate ∧
      Pace.period plan.rate = .ok plan.period := by
  intro plan member
  obtain ⟨rate, period, -⟩ := mem_ofConfig h plan member
  exact ⟨rate, period⟩

/-- The default configuration can be planned. -/
theorem ofConfig_default : ∃ plans, ofConfig RunConfig.default = .ok plans := by
  have planned : (ofConfig RunConfig.default).isOk = true := by decide +kernel
  cases result : ofConfig RunConfig.default with
  | error fault =>
    rw [result] at planned
    cases planned
  | ok plans => exact ⟨plans, rfl⟩

end Plan

end Cadence
