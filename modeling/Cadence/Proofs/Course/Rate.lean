import Cadence.Proofs.Course.Pacing
import Cadence.Proofs.Pace
import Cadence.Proofs.Run.Plan

/-!
# Arrivals at the configured rate

How far the number of arrivals may be off what the rate of a scenario says. Three things take part:
a period is rounded to whole nanoseconds, which adds up over all the ticks of a run; timers fire at
whole milliseconds, so that a tick may be due just at the deadline; and the first tick comes at
once.
-/

namespace Cadence

theorem Duration.lt_add_of_timerTick_le {first second : Nat}
    (h : timerTick first ≤ timerTick second) : first < second + 10 ^ 6 := by
  unfold timerTick at h
  omega

namespace Executor

variable {terms : Terms} {now : Nat} {executor : Executor}

/-- The last arrival comes before the duration is over, and the one behind it would come later, or
less than a millisecond before. -/
theorem Paced.duration_between (h : Paced terms now executor)
    (ending : executor.stage = .draining ∨ executor.stage = .ended) :
    (∀ earlier, executor.handled = earlier + 1 →
      earlier * executor.plan.period.nanos < terms.duration.nanos) ∧
    terms.duration.nanos < executor.handled * executor.plan.period.nanos + 10 ^ 6 := by
  refine ⟨?_, ?_⟩
  · intro earlier last
    have due := (h.handled_iff ending earlier).mp (last ▸ Nat.lt_succ_self earlier)
    exact Duration.lt_of_timerTick_lt due
  · have late := (h.handled_iff ending executor.handled).not.mp (Nat.lt_irrefl _)
    exact Duration.lt_add_of_timerTick_le (Nat.le_of_not_lt late)

end Executor

namespace Course

variable {config : RunConfig} {plan : Plan} {terms : Terms} {arrivals : List Nat} {now : Nat}
  {executor : Executor}

/-- So many periods are as many as the rate says if their product with the rate is a second, but for
five microseconds. -/
theorem abs_count_sub_le {count period duration : Nat} {rate : ℚ} (pos : 0 < rate)
    (precise : |period * rate - 10 ^ 9| ≤ 5001)
    (begun : ∀ earlier, count = earlier + 1 → earlier * period < duration)
    (ended : duration < count * period + 10 ^ 6) :
    |count - rate * (duration / 10 ^ 9)| ≤
      rate * (duration / 10 ^ 9) / 10 ^ 5 + rate * (11 / 10000) + 1 := by
  obtain ⟨least, most⟩ := abs_le.mp precise
  have due : 0 ≤ rate * duration := by positivity
  have ended : (duration : ℚ) ≤ count * period + 10 ^ 6 := by exact_mod_cast ended.le
  have many : rate * duration ≤ count * (10 ^ 9 + 5001) + 10 ^ 6 * rate :=
    calc rate * duration ≤ rate * (count * period + 10 ^ 6) := by gcongr
      _ = count * (period * rate) + 10 ^ 6 * rate := by ring
      _ ≤ count * (10 ^ 9 + 5001) + 10 ^ 6 * rate := by gcongr; linarith
  have few : (count - 1) * (10 ^ 9 - 5001) ≤ rate * duration := by
    cases count with
    | zero =>
      norm_num
      linarith
    | succ earlier =>
      have begun : (earlier * period : ℚ) ≤ duration := by exact_mod_cast (begun earlier rfl).le
      calc ((earlier + 1 : ℕ) - 1 : ℚ) * (10 ^ 9 - 5001) = earlier * (10 ^ 9 - 5001) := by
            push_cast; ring
        _ ≤ earlier * (period * rate) := by gcongr; linarith
        _ = rate * (earlier * period) := by ring
        _ ≤ rate * duration := by gcongr
  refine abs_le.mpr ⟨?_, ?_⟩ <;> linarith

/-- What the executor of a planned pool handles before it leaves off is what its rate says, whatever
its iterations come to. -/
theorem Reaches.abs_handled_sub_le {plans : List Plan} (planned : Plan.ofConfig config = .ok plans)
    (member : plan ∈ plans) (h : Reaches plan terms arrivals now executor)
    (ending : executor.stage = .draining ∨ executor.stage = .ended) :
    |executor.handled - Quantity.ratOfFloat plan.rate * (terms.duration.nanos / 10 ^ 9)| ≤
      Quantity.ratOfFloat plan.rate * (terms.duration.nanos / 10 ^ 9) / 10 ^ 5 +
        Quantity.ratOfFloat plan.rate * (11 / 10000) + 1 := by
  obtain ⟨rfl, paced, -⟩ := h.paced
  obtain ⟨-, period⟩ := Plan.ofConfig_pace planned _ member
  obtain ⟨begun, ended⟩ := paced.duration_between ending
  exact abs_count_sub_le (Pace.ratOfFloat_pos period) (Pace.abs_period_mul_rate_sub_le period)
    begun ended

/-- The executor of a planned pool leaves off at its deadline, if that is an instant at all. -/
theorem Reaches.left_of_late {plans : List Plan} (planned : Plan.ofConfig config = .ok plans)
    (member : plan ∈ plans) (h : Reaches plan terms arrivals now executor)
    (late : Duration.timerTick terms.duration.nanos < now) :
    (executor.stage = .draining ∨ executor.stage = .ended) ∨
      executor.stage = .failed ∧ representable terms.instant terms.duration = false := by
  obtain ⟨rfl, paced, -⟩ := h.paced
  obtain ⟨-, period⟩ := Plan.ofConfig_pace planned _ member
  cases stage : executor.stage with
  | idle =>
    rw [(paced.idle stage).1] at late
    exact absurd late (Nat.not_lt_zero _)
  | dispatching => exact absurd (paced.onTime stage).2 (Nat.not_le_of_lt late)
  | draining => exact Or.inl (Or.inl rfl)
  | ended => exact Or.inl (Or.inr rfl)
  | failed =>
    refine Or.inr ⟨rfl, ?_⟩
    simpa [Plan.paceable, Pace.isZero_period period] using paced.failed stage

/-- Every configured scenario is driven at its rate: in whatever time a run is to take, an executor
that nobody stops handles as many arrivals as the rate says. What it may be off is a hundred
thousandth of them, those of a millisecond or so, and one. Behind its deadline it
has left off, unless that is no instant, in which case it has failed. -/
theorem arrivals_at_rate (accepted : config.validate = .ok ()) :
    ((∀ entry ∈ config.scenarioRates, entry.1 = pingName ∨ entry.1 = putGetName) →
      ∃ plans, Plan.ofConfig config = .ok plans) ∧
    ∀ plans, Plan.ofConfig config = .ok plans →
      plans.map (·.scenario.name) = config.scenarioRates.map (·.1) ∧
      ∀ plan ∈ plans, config.rateOf? plan.scenario.name = some plan.rate ∧
        ∀ terms arrivals now executor, Reaches plan terms arrivals now executor →
          let rate := Quantity.ratOfFloat plan.rate
          let seconds : ℚ := terms.duration.nanos / 10 ^ 9
          let handled := executor.counters.dispatched + executor.counters.dropped
          (executor.stage = .draining ∨ executor.stage = .ended →
            |handled - rate * seconds| ≤
              rate * seconds / 10 ^ 5 + rate * (11 / 10000) + 1) ∧
          (Duration.timerTick terms.duration.nanos < now →
            (executor.stage = .draining ∨ executor.stage = .ended) ∨
              executor.stage = .failed ∧ representable terms.instant terms.duration = false) := by
  refine ⟨Plan.ofConfig_of_accepted (RunConfig.validate_eq_ok_iff.mp accepted), ?_⟩
  intro plans planned
  obtain ⟨names, -, -⟩ := Plan.ofConfig_eq_ok planned
  refine ⟨names, fun plan member => ⟨(Plan.ofConfig_pace planned plan member).1, ?_⟩⟩
  intro terms arrivals now executor h rate seconds handled
  refine ⟨fun ending => ?_, h.left_of_late planned member⟩
  simpa [handled, rate, seconds, Executor.handled] using h.abs_handled_sub_le planned member ending

/-- One arrival a second. -/
def everySecond : RunConfig :=
  { RunConfig.default with scenarioRates := [(pingName, 1)], minWorkers := 1, thresholds := [] }

theorem ofConfig_everySecond :
    Plan.ofConfig everySecond = .ok [⟨.ping everySecond.settle, 1, .ofSecs 1, 1, 0⟩] := by
  have scenarios : Scenario.all everySecond = .ok [.ping everySecond.settle] := rfl
  have workers : everySecond.workersFor 1 = 1 := by decide +kernel
  refine bind_eq_ok.mpr ⟨_, scenarios, bind_eq_ok.mpr ⟨_, ?_, bind_eq_ok.mpr ⟨[], rfl, rfl⟩⟩⟩
  refine bind_eq_ok.mpr ⟨1, rfl, bind_eq_ok.mpr ⟨_, Pace.period_one, ?_⟩⟩
  rw [workers]

/-- In a second and a half two arrivals are handled, which is half an arrival more than the rate
says. -/
theorem arrivals_at_rate_everySecond : ∃ plans plan executor,
    everySecond.validate = .ok () ∧ Plan.ofConfig everySecond = .ok plans ∧ plan ∈ plans ∧
    Reaches plan ⟨.ofMillis 1500, .zero, 0⟩ [0, 1000] 1500 executor ∧
    executor.stage = .draining ∧
    |((executor.counters.dispatched + executor.counters.dropped : ℕ) : ℚ) -
        Quantity.ratOfFloat plan.rate * ((Duration.ofMillis 1500).nanos / 10 ^ 9)| ≤
      Quantity.ratOfFloat plan.rate * ((Duration.ofMillis 1500).nanos / 10 ^ 9) / 10 ^ 5 +
        Quantity.ratOfFloat plan.rate * (11 / 10000) + 1 := by
  have course : ∃ arrivals course,
      Unstopped 0 (start (Run.start [⟨.ping everySecond.settle, 1, .ofSecs 1, 1, 0⟩] []
        (.initial none)) ⟨.ofMillis 1500, .zero, 0⟩ 0 []) arrivals course ∧
      arrivals = [0, 1000] ∧ course.now = 1500 ∧
      course.run.executors.map (·.stage) = [.draining] := by
    refine ⟨_, _, .goesOn (.goesOn (.goesOn (.goesOn (.goesOn (.goesOn (.goesOn (.begins rfl)
      (.step rfl) rfl) (.step rfl) rfl) (.step rfl) rfl) (.step rfl) rfl) (.step rfl) rfl)
      (.step rfl) rfl) (.step rfl) rfl, ?_, ?_, ?_⟩
    all_goals decide +kernel
  obtain ⟨arrivals, course, h, rfl, now, stages⟩ := course
  obtain ⟨executor, rest, stage⟩ := List.map_eq_singleton_iff.mp stages
  have reaches : Reaches ⟨.ping everySecond.settle, 1, .ofSecs 1, 1, 0⟩ ⟨.ofMillis 1500, .zero, 0⟩
      [0, 1000] 1500 executor := ⟨_, _, _, _, _, _, course, rfl, h, by rw [rest]; rfl, now⟩
  obtain ⟨-, every⟩ := arrivals_at_rate (show everySecond.validate = .ok () from rfl)
  obtain ⟨-, every⟩ := every _ ofConfig_everySecond
  obtain ⟨-, every⟩ := every _ (List.mem_singleton_self _)
  obtain ⟨left, -⟩ := every _ _ _ _ reaches
  exact ⟨_, _, executor, rfl, ofConfig_everySecond, List.mem_singleton_self _, reaches, stage,
    left (Or.inl stage)⟩

end Course

end Cadence
