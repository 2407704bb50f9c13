import Cadence.Config

/-!
# Accepted configurations

What `RunConfig.validate` accepts, said without the order in which it looks for faults.
-/

namespace Cadence.RunConfig

/-- A configuration in which nothing is wrong. -/
structure Accepted (config : RunConfig) : Prop where
  baseUrl : hasScheme "http://" config.baseUrl = true ∨ hasScheme "https://" config.baseUrl = true
  keyPrefix : config.keyPrefix ≠ ""
  scenarios : config.scenarioRates ≠ []
  rates : ∀ rate ∈ config.scenarioRates, Pace.inRange rate.2 = true
  durations : ∀ setting ∈ config.positiveDurations, setting.2.isZero = false
  workers : config.minWorkers ≠ 0 ∧ config.minWorkers ≤ maxWorkers
  thresholds : ∀ threshold ∈ config.thresholds, config.thresholdFault? threshold = none

variable {config : RunConfig}

theorem fault?_eq_none_iff : config.fault? = none ↔ config.Accepted := by
  have clear : config.fault? = none ↔
      (hasScheme "http://" config.baseUrl = true ∨ hasScheme "https://" config.baseUrl = true) ∧
      config.keyPrefix ≠ "" ∧ config.scenarioRates ≠ [] ∧
      (∀ rate ∈ config.scenarioRates, Pace.inRange rate.2 = true) ∧
      (∀ setting ∈ config.positiveDurations, setting.2.isZero = false) ∧
      (config.minWorkers ≠ 0 ∧ config.minWorkers ≤ maxWorkers) ∧
      ∀ threshold ∈ config.thresholds, config.thresholdFault? threshold = none := by
    simp [fault?, Decidable.or_iff_not_imp_left]
  rw [clear]
  constructor
  · rintro ⟨baseUrl, keyPrefix, scenarios, rates, durations, workers, thresholds⟩
    exact ⟨baseUrl, keyPrefix, scenarios, rates, durations, workers, thresholds⟩
  · intro h
    exact ⟨h.baseUrl, h.keyPrefix, h.scenarios, h.rates, h.durations, h.workers, h.thresholds⟩

/-- Validation accepts just the configurations in which nothing is wrong. -/
theorem validate_eq_ok_iff : config.validate = .ok () ↔ config.Accepted := by
  rw [← fault?_eq_none_iff, validate]
  cases config.fault? with
  | none => simp
  | some fault => simp

end Cadence.RunConfig
