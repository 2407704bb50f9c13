import Cadence.Proofs.Ledger.Recount
import Cadence.Proofs.Quantity.Percentile
import Cadence.Proofs.Threshold

/-!
# When there is a value to observe

A ledger that is asked for a metric has two reasons to have no value: the metric does not have the
aggregation, or nothing was recorded in scope. Thresholds with the first flaw are refused when they
are built, so that a threshold of a run lacks a value for want of data only.
-/

namespace Cadence

/-- The aggregations that take a value between two ranks. -/
def Aggregation.interpolates : Aggregation → Bool
  | .percentile _ | .med => true
  | .rate | .count | .avg | .min | .max => false

/-- Whether a history has anything for a metric in a scope. For a count it always has: of nothing,
there are none. -/
def History.HasData (scope : Option String) (records : List Record) : Metric → Prop
  | .checks => checks scope records ≠ []
  | .requestFailures | .requestDurations => samples scope records ≠ []
  | .requests | .iterations | .droppedIterations => True

theorem Quantity.isSome_ratio {part total : Nat} :
    (ratio part total : Option Float).isSome = true ↔ total ≠ 0 := by
  unfold ratio
  split_ifs with none
  · simp [none]
  · simp [none]

namespace Ledger

variable {ledger : Ledger} {scope : Option String} {records : List Record}

theorem isSome_checkPassRate : ((ofRecords records).checkPassRate scope : Option Float).isSome =
    true ↔ History.checks scope records ≠ [] := by
  rw [checkPassRate, Quantity.isSome_ratio, checks_ofRecords, ne_eq, List.length_eq_zero_iff]

theorem isSome_requestFailRate : ((ofRecords records).requestFailRate scope : Option Float).isSome =
    true ↔ History.samples scope records ≠ [] := by
  rw [requestFailRate, Quantity.isSome_ratio, requests_ofRecords, ne_eq, List.length_eq_zero_iff]

/-- There are durations in a scope exactly if there are requests. -/
theorem durations_ne_nil_iff :
    (ofRecords records).durations scope ≠ [] ↔ 0 < (ofRecords records).requests scope := by
  rw [← length_durations, List.length_pos_iff]

/-- Durations have every trend, unless there are none. Where a trend takes a value between two
ranks, they must not be so many that the ranks are rounded. -/
theorem isSome_trend {aggregation : Aggregation}
    (supported : Metric.requestDurations.supports aggregation = true)
    (few : aggregation.interpolates = true → (ledger.durations scope).length ≤ 2 ^ 53) :
    (ledger.trend scope aggregation : Option Float).isSome = true ↔
      ledger.durations scope ≠ [] := by
  have values : (ledger.millis scope : List Float) ≠ [] ↔ ledger.durations scope ≠ [] := by
    rw [millis, ne_eq, List.map_eq_nil_iff]
  have ranked (p : Float) (few : (ledger.durations scope).length ≤ 2 ^ 53) :
      (ledger.durationPercentile p scope : Option Float).isSome = true ↔
        ledger.durations scope ≠ [] := by
    rw [← values]
    exact Rank.isSome_percentile p (by rwa [millis, List.length_map])
  cases aggregation with
  | percentile p => exact ranked p (few rfl)
  | med => exact ranked _ (few rfl)
  | min =>
    rw [← values, trend, List.isSome_head?]
  | max =>
    rw [← values, trend, List.getLast?_isSome]
  | avg =>
    rw [← values, trend, mean]
    split_ifs with none
    · simpa using none
    · simpa using none
  | rate => cases supported
  | count => cases supported

/-- A metric that does not have an aggregation is never reduced by it. -/
theorem observe_of_unsupported {selector : Selector} {aggregation : Aggregation}
    (unsupported : selector.metric.supports aggregation = false) :
    (ledger.observe selector aggregation : Option Float) = none := by
  obtain ⟨metric, scope⟩ := selector
  cases metric with
  | checks | requestFailures =>
    cases aggregation with
    | rate => cases unsupported
    | _ => rfl
  | requestDurations =>
    cases aggregation with
    | rate | count => rfl
    | _ => cases unsupported
  | requests | iterations | droppedIterations =>
    cases aggregation with
    | count => cases unsupported
    | _ => rfl

/-- A metric that has an aggregation is reduced by it, if there are data. -/
theorem isSome_observe_of_supported {selector : Selector} {aggregation : Aggregation}
    (supported : selector.metric.supports aggregation = true)
    (few : aggregation.interpolates = true →
      (ofRecords records).requests selector.scenario ≤ 2 ^ 53) :
    ((ofRecords records).observe selector aggregation : Option Float).isSome = true ↔
      History.HasData selector.scenario records selector.metric := by
  obtain ⟨metric, scope⟩ := selector
  cases metric with
  | checks =>
    cases aggregation with
    | rate => exact isSome_checkPassRate
    | _ => cases supported
  | requestFailures =>
    cases aggregation with
    | rate => exact isSome_requestFailRate
    | _ => cases supported
  | requestDurations =>
    have short (ranked : aggregation.interpolates = true) :
        ((ofRecords records).durations scope).length ≤ 2 ^ 53 := by
      rw [length_durations]
      exact few ranked
    refine (isSome_trend supported short).trans ?_
    rw [durations_ne_nil_iff, requests_ofRecords, List.length_pos_iff]
    rfl
  | requests | iterations | droppedIterations =>
    cases aggregation with
    | count => exact iff_of_true rfl trivial
    | _ => cases supported

/-- A ledger has a value exactly if the metric has the aggregation and there are data in scope;
there are durations in a scope exactly if requests are counted there, and counts always have a
value. So a threshold that can be built lacks a value for want of data only, and one that is refused
never has one.

A percentile is looked for at a position of all durations in scope. They are kept in memory, in
eight bytes each: an address space of 2⁵⁶ bytes has no room for more than 2⁵³ of them, and so many
positions are numbers in floating point. -/
theorem observed_unless_silent (records : List Record) (selector : Selector)
    (aggregation : Aggregation)
    (few : aggregation.interpolates = true →
      (ofRecords records).requests selector.scenario ≤ 2 ^ 53) :
    let ledger := ofRecords records
    ((ledger.observe selector aggregation : Option Float).isSome = true ↔
      selector.metric.supports aggregation = true ∧
        History.HasData selector.scenario records selector.metric) ∧
    (ledger.durations selector.scenario ≠ [] ↔ 0 < ledger.requests selector.scenario) ∧
    ∀ comparison bound failFast,
      (∀ threshold, Threshold.ofParts selector ⟨aggregation, comparison, bound⟩ = .ok threshold →
        ((ledger.judge (threshold.withAbortOnFail failFast)).observed = none ↔
          ¬ History.HasData selector.scenario records selector.metric)) ∧
      ∀ fault, Threshold.ofParts selector ⟨aggregation, comparison, bound⟩ = .error fault →
        (ledger.judge ⟨selector, ⟨aggregation, comparison, bound⟩, failFast⟩).observed = none := by
  intro ledger
  refine ⟨?_, durations_ne_nil_iff, fun comparison bound failFast => ⟨?_, ?_⟩⟩
  · by_cases supported : selector.metric.supports aggregation = true
    · rw [isSome_observe_of_supported supported few]
      exact (and_iff_right supported).symm
    · have missing : (ledger.observe selector aggregation : Option Float) = none :=
        observe_of_unsupported (Bool.eq_false_iff.mpr supported)
      simp [missing, supported]
  · intro threshold made
    obtain ⟨supported, rfl⟩ := Threshold.ofParts_eq_ok.mp made
    rw [← isSome_observe_of_supported supported few, Option.not_isSome_iff_eq_none]
    rfl
  · intro fault refused
    refine observe_of_unsupported (Bool.eq_false_iff.mpr fun supported => ?_)
    rw [Threshold.ofParts_eq_ok.mpr ⟨supported, rfl⟩] at refused
    cases refused

/-- After a request of one scenario and a check of another, each has a value for its own metric
only. -/
theorem observed_unless_silent_mixed :
    let records := [Record.sample ⟨"ping", "GET /ping", ⟨1500000⟩, false, some 200⟩,
      Record.check ⟨"put_get", "put status is 200/201", true⟩]
    (ofRecords records).requests (some "ping") ≤ 2 ^ 53 ∧
      (ofRecords records).requests (some "put_get") ≤ 2 ^ 53 ∧
      ((ofRecords records).observe ⟨.requestDurations, some "ping"⟩ (.percentile 95) :
        Option Float).isSome = true ∧
      ((ofRecords records).observe ⟨.requestDurations, some "put_get"⟩ (.percentile 95) :
        Option Float).isSome = false ∧
      ((ofRecords records).observe ⟨.checks, some "put_get"⟩ .rate : Option Float).isSome =
        true := by
  intro records
  have ping : (ofRecords records).requests (some "ping") ≤ 2 ^ 53 := by decide
  have putGet : (ofRecords records).requests (some "put_get") ≤ 2 ^ 53 := by decide
  obtain ⟨own, -⟩ := observed_unless_silent records ⟨.requestDurations, some "ping"⟩
    (.percentile 95) fun _ => ping
  obtain ⟨other, -⟩ := observed_unless_silent records ⟨.requestDurations, some "put_get"⟩
    (.percentile 95) fun _ => putGet
  obtain ⟨checked, -⟩ := observed_unless_silent records ⟨.checks, some "put_get"⟩ .rate
    fun ranked => by cases ranked
  have silent : History.samples (some "put_get") records = [] := by decide
  refine ⟨ping, putGet, own.mpr ⟨rfl, ?_⟩, ?_, checked.mpr ⟨rfl, ?_⟩⟩
  · show History.samples (some "ping") records ≠ []
    decide
  · refine Bool.eq_false_iff.mpr fun observed => ?_
    exact (other.mp observed).2 silent
  · show History.checks (some "put_get") records ≠ []
    decide

end Ledger

end Cadence
