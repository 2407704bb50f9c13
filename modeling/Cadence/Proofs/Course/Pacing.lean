import Cadence.Proofs.Course.Move
import Mathlib.Data.Set.Card

/-!
# Arrivals come at fixed times

The arrivals of an executor depend on the period of its ticks and on the duration of the run, and on
nothing else: not on what the gateway answers and when, not on iterations that break off, not on the
size of its pool, and not on the executors beside it. Every tick that is due before the deadline is
handled once, at the moment it is due, by starting an iteration or by dropping the arrival.
-/

namespace Cadence

namespace Course

/-- Arrivals that the executor of a lane has handled. -/
def handled (course : Course) (lane : Nat) : Nat :=
  (course.run.executors[lane]?.map Executor.handled).getD 0

/-- How a course has gone without anybody asking for a stop, with the times at which the executor of
a lane has handled arrivals, one for each. -/
inductive Unstopped (lane : Nat) (first : Course) : List Nat → Course → Prop where
  | begins (unstopped : first.run.stop.isStopped = false) : Unstopped lane first [] first
  | goesOn {arrivals : List Nat} {course next : Course}
      (before : Unstopped lane first arrivals course) (moves : Moves course next)
      (unstopped : next.run.stop.isStopped = false) :
      Unstopped lane first
        (arrivals ++ List.replicate (next.handled lane - course.handled lane) next.now) next

/-- An executor of a run can come so far without a stop, at that time and with arrivals at those
times. -/
def Reaches (plan : Plan) (terms : Terms) (arrivals : List Nat) (now : Nat)
    (executor : Executor) : Prop :=
  ∃ (plans : List Plan) (thresholds : List Threshold) (cell : StopCell) (epoch : Int)
    (agenda : List (Nat × Happening)) (lane : Nat) (course : Course),
    plans[lane]? = some plan ∧
    Unstopped lane (start (Run.start plans thresholds cell) terms epoch agenda) arrivals course ∧
    course.run.executors[lane]? = some executor ∧ course.now = now

variable {plan : Plan} {terms : Terms} {lane : Nat} {arrivals : List Nat} {course next : Course}
  {executor after : Executor}

/-- A move keeps the pace of an executor; arrivals that it handles are due at its time. -/
theorem LaneMove.inTime (h : LaneMove course lane executor next after)
    (paced : executor.Paced course.terms course.now)
    (unstopped : course.run.stop.isStopped = false) :
    after.plan = executor.plan ∧ Executor.InTime course.terms next.now executor after := by
  cases h with
  | performs choice chosen now =>
    rw [now]
    refine ⟨(Executor.perform_turn executor _ choice).plan, ?_⟩
    exact paced.perform unstopped rfl decide_eq_true_iff decide_eq_true_iff chosen
  | stands keeps now =>
    rw [now]
    exact ⟨keeps.plan, paced.inTime_keep keeps⟩
  | waits keeps idle timely =>
    obtain ⟨busy, -, -⟩ := Executor.timers_of_idle idle
    have waited : executor.Paced course.terms next.now := by
      refine paced.wait busy fun dispatching => ?_
      have first := timely (min course.deadline (tickDue executor))
        (by simp [nextTimer?, dispatching])
      exact ⟨(Nat.le_min.mp first).2, (Nat.le_min.mp first).1⟩
    exact ⟨keeps.plan, waited.inTime_keep keeps⟩

/-- Along every course that nobody stops an executor keeps its pace, and its arrivals are those of
its ticks. -/
theorem Unstopped.paced {plans : List Plan} (planned : plans[lane]? = some plan)
    {thresholds : List Threshold} {cell : StopCell} {epoch : Int}
    {agenda : List (Nat × Happening)}
    (h : Unstopped lane (start (Run.start plans thresholds cell) terms epoch agenda) arrivals
      course) :
    course.run.stop.isStopped = false ∧ course.terms = terms ∧
      ∃ executor, course.run.executors[lane]? = some executor ∧ executor.plan = plan ∧
        executor.Paced terms course.now ∧
        arrivals = (List.range executor.handled).map fun round => roundDue round plan.period := by
  induction h with
  | begins unstopped =>
    refine ⟨unstopped, rfl, .subscribe plan cell, ?_, rfl, ?_, rfl⟩
    · exact (Run.executors_start plans thresholds cell lane).trans (by rw [planned]; rfl)
    · exact Executor.paced_subscribe _ plan cell
  | @goesOn arrivals course next before moves unstopped ih =>
    obtain ⟨going, sameTerms, executor, found, samePlan, paced, times⟩ := ih
    obtain ⟨terms', after, left, move⟩ := moves_lane moves found
    rw [← sameTerms] at paced
    obtain ⟨plan', pace, count⟩ := move.inTime paced going
    refine ⟨unstopped, terms'.trans sameTerms, after, left, plan'.trans samePlan, ?_, ?_⟩
    · rw [← sameTerms]
      exact pace
    · have handled : course.handled lane = executor.handled := by simp [Course.handled, found]
      have handled' : next.handled lane = after.handled := by simp [Course.handled, left]
      rw [handled, handled', times]
      rcases count with same | ⟨more, punctual⟩
      · simp [same]
      · rw [more, Nat.add_sub_cancel_left, List.range_succ, List.map_append, ← punctual, tickDue,
          paced.counted, samePlan]
        rfl

/-- The arrivals of an executor that has left off are those due before its deadline. -/
theorem handled_eq_ncard {now : Nat} (paced : executor.Paced terms now)
    (ending : executor.stage = .draining ∨ executor.stage = .ended) :
    executor.handled = Set.ncard {round | roundDue round executor.plan.period <
      Duration.timerTick terms.duration.nanos} := by
  have same : {round |
      roundDue round executor.plan.period < Duration.timerTick terms.duration.nanos} =
      ↑(Finset.range executor.handled) := by
    ext round
    rw [Finset.coe_range, Set.mem_Iio, Set.mem_ofPred_eq, paced.handled_iff ending]
  rw [same, Set.ncard_coe_finset, Finset.card_range]

/-- Where an executor that nobody stops has come to. -/
theorem Reaches.paced {now : Nat} (h : Reaches plan terms arrivals now executor) :
    executor.plan = plan ∧ executor.Paced terms now ∧
      arrivals = (List.range executor.handled).map fun round => roundDue round plan.period := by
  obtain ⟨plans, thresholds, cell, epoch, agenda, lane, course, planned, course', found, rfl⟩ := h
  obtain ⟨-, -, other, found', same, paced, times⟩ := course'.paced planned
  obtain rfl : other = executor := Option.some.inj (found'.symm.trans found)
  exact ⟨same, paced, times⟩

/-- An executor that nobody stops handles its arrivals in time, whatever its iterations come to: the
ticks that are due before the deadline, each once and when it is due. So the arrivals of two
executors with the same period and duration are the same. -/
theorem arrivals_on_time {now : Nat} (h : Reaches plan terms arrivals now executor) :
    let due := fun round => Duration.timerTick (round * plan.period.nanos)
    let deadline := Duration.timerTick terms.duration.nanos
    let handled := executor.counters.dispatched + executor.counters.dropped
    arrivals = (List.range handled).map due ∧
    (executor.stage = .dispatching → ∀ round, due round < now → round < handled) ∧
    (plan.paceable terms.instant terms.duration = true → deadline < now →
      executor.stage = .draining ∨ executor.stage = .ended) ∧
    (executor.stage = .draining ∨ executor.stage = .ended →
      (∀ round, round < handled ↔ due round < deadline) ∧
      handled = Set.ncard {round | due round < deadline} ∧
      ∀ plan' terms' arrivals' now' executor', Reaches plan' terms' arrivals' now' executor' →
        executor'.stage = .draining ∨ executor'.stage = .ended →
        plan'.period = plan.period → terms'.duration = terms.duration → arrivals' = arrivals) := by
  intro due deadline handled
  obtain ⟨rfl, paced, times⟩ := h.paced
  refine ⟨times, ?_, ?_, ?_⟩
  · intro dispatching round before
    by_contra behind
    rw [show handled = executor.ticks from paced.counted.symm] at behind
    have later := roundDue_mono (Nat.le_of_not_lt behind) executor.plan.period
    have early : roundDue round executor.plan.period < tickDue executor :=
      Nat.lt_of_lt_of_le before (paced.onTime dispatching).1
    exact Nat.lt_irrefl _ (Nat.lt_of_lt_of_le early later)
  · intro paceable late
    cases stage : executor.stage with
    | idle =>
      rw [(paced.idle stage).1] at late
      exact absurd late (Nat.not_lt_zero _)
    | dispatching => exact absurd (paced.onTime stage).2 (Nat.not_le_of_lt late)
    | draining => exact Or.inl rfl
    | ended => exact Or.inr rfl
    | failed =>
      rw [paced.failed stage] at paceable
      cases paceable
  · intro ending
    refine ⟨paced.handled_iff ending, handled_eq_ncard paced ending, ?_⟩
    intro plan' terms' arrivals' now' executor' h' ending' period duration
    obtain ⟨rfl, paced', times'⟩ := h'.paced
    have same : executor'.handled = executor.handled := by
      rw [handled_eq_ncard paced' ending', handled_eq_ncard paced ending, period, duration]
    rw [times', times, same, period]

/-- One worker, whose first iteration waits for a reply: the second arrival is dropped. -/
theorem arrivals_on_time_ping : ∃ executor,
    Reaches ⟨.ping .zero, 100, .ofMillis 10, 1, 0⟩ ⟨.ofMillis 15, .zero, 0⟩ [0, 10] 15 executor ∧
    executor.counters.dispatched + executor.counters.dropped =
      Set.ncard {round | Duration.timerTick (round * (Duration.ofMillis 10).nanos) <
        Duration.timerTick (Duration.ofMillis 15).nanos} := by
  have course : ∃ arrivals course,
      Unstopped 0 (start (Run.start [⟨.ping .zero, 100, .ofMillis 10, 1, 0⟩] [] (.initial none))
        ⟨.ofMillis 15, .zero, 0⟩ 0 []) arrivals course ∧
      arrivals = [0, 10] ∧ course.now = 15 ∧
      course.run.executors.map (·.stage) = [.draining] := by
    refine ⟨_, _, .goesOn (.goesOn (.goesOn (.goesOn (.goesOn (.goesOn (.goesOn (.begins rfl)
      (.step rfl) rfl) (.step rfl) rfl) (.step rfl) rfl) (.step rfl) rfl) (.step rfl) rfl)
      (.step rfl) rfl) (.step rfl) rfl, ?_, ?_, ?_⟩
    all_goals decide +kernel
  obtain ⟨arrivals, course, h, rfl, now, stages⟩ := course
  obtain ⟨executor, rest, stage⟩ := List.map_eq_singleton_iff.mp stages
  have reaches : Reaches ⟨.ping .zero, 100, .ofMillis 10, 1, 0⟩ ⟨.ofMillis 15, .zero, 0⟩ [0, 10] 15
      executor := ⟨_, _, _, _, _, _, course, rfl, h, by rw [rest]; rfl, now⟩
  obtain ⟨-, -, -, ending⟩ := arrivals_on_time reaches
  obtain ⟨-, count, -⟩ := ending (Or.inl stage)
  exact ⟨executor, reaches, count⟩

end Course

end Cadence
