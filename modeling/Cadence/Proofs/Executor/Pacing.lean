import Cadence.Course
import Cadence.Proofs.Executor.Turn

/-!
# The pace of executors

An executor whose timers fire in time and which nobody stops handles a tick at the moment it is due,
whatever else it has to do: the steps that go before a tick take no time. It leaves off at its
deadline, and the tick that would be next then is not due before.
-/

namespace Cadence

open Course

theorem Duration.timerTick_mono {first second : Nat} (h : first ≤ second) :
    timerTick first ≤ timerTick second :=
  Nat.div_le_div_right (Nat.add_le_add_right h _)

theorem Duration.lt_of_timerTick_lt {first second : Nat} (h : timerTick first < timerTick second) :
    first < second := by
  unfold timerTick at h
  omega

/-- Rounds are due in their order. -/
theorem Course.roundDue_mono {first second : Nat} (h : first ≤ second) (every : Duration) :
    roundDue first every ≤ roundDue second every :=
  Duration.timerTick_mono (Nat.mul_le_mul_right _ h)

namespace Executor

/-- Arrivals that an executor has handled: those it started an iteration for, and those it
dropped. -/
def handled (executor : Executor) : Nat :=
  executor.counters.dispatched + executor.counters.dropped

/-- What the pace of an executor rests on stays as it is. -/
structure Keeps (executor next : Executor) : Prop where
  plan : next.plan = executor.plan
  stage : next.stage = executor.stage
  ticks : next.ticks = executor.ticks
  handled : next.handled = executor.handled

theorem Keeps.refl (executor : Executor) : Keeps executor executor := ⟨rfl, rfl, rfl, rfl⟩

theorem Nudge.keeps {executor next : Executor} {worker : Nat} {stimulus : Stimulus}
    {leg : Option Leg} (nudge : Nudge executor worker stimulus leg next) : Keeps executor next := by
  obtain ⟨plan, stage, ticks, -, counters⟩ := nudge.frame
  exact ⟨plan, stage, ticks, by rw [handled, handled, counters]⟩

/-- At a time an executor is neither behind its ticks nor ahead of them, as long as it dispatches,
and has handled all that are due before its deadline when it does no more. -/
structure Paced (terms : Terms) (now : Nat) (executor : Executor) : Prop where
  counted : executor.ticks = executor.handled
  early : ∀ round < executor.ticks,
    roundDue round executor.plan.period < Duration.timerTick terms.duration.nanos
  idle : executor.stage = .idle → now = 0 ∧ executor.ticks = 0
  onTime : executor.stage = .dispatching →
    now ≤ tickDue executor ∧ now ≤ Duration.timerTick terms.duration.nanos
  ending : executor.stage = .draining ∨ executor.stage = .ended →
    Duration.timerTick terms.duration.nanos ≤ tickDue executor
  failed : executor.stage = .failed → executor.plan.paceable terms.instant terms.duration = false

/-- A step at a time keeps the pace, and a tick is handled then only if it is due then. -/
structure InTime (terms : Terms) (now : Nat) (executor next : Executor) : Prop where
  paced : Paced terms now next
  punctual : next.handled = executor.handled ∨
    next.handled = executor.handled + 1 ∧ tickDue executor = now

variable {terms : Terms} {now : Nat} {executor next : Executor}

theorem paced_subscribe (terms : Terms) (plan : Plan) (cell : StopCell) :
    Paced terms 0 (subscribe plan cell) where
  counted := rfl
  early round h := absurd h (Nat.not_lt_zero round)
  idle _ := ⟨rfl, rfl⟩
  onTime _ := ⟨Nat.zero_le _, Nat.zero_le _⟩
  ending ended := by rcases ended with ended | ended <;> cases ended
  failed failed := by cases failed

theorem Paced.keep (h : Paced terms now executor) (keeps : Keeps executor next) :
    Paced terms now next := by
  have due : tickDue next = tickDue executor := by
    rw [tickDue, tickDue, keeps.ticks, keeps.plan]
  refine ⟨?_, ?_, ?_, ?_, ?_, ?_⟩
  · rw [keeps.ticks, keeps.handled]
    exact h.counted
  · rw [keeps.ticks, keeps.plan]
    exact h.early
  · rw [keeps.stage, keeps.ticks]
    exact h.idle
  · rw [keeps.stage, due]
    exact h.onTime
  · rw [keeps.stage, due]
    exact h.ending
  · rw [keeps.stage, keeps.plan]
    exact h.failed

/-- Dispatching is over when the tick that would be next is due at the deadline or behind it. -/
theorem Paced.leave (h : Paced terms now executor)
    (late : Duration.timerTick terms.duration.nanos ≤ tickDue executor) {stage : Stage}
    (ending : stage = .draining ∨ stage = .ended) :
    Paced terms now { executor with stage } where
  counted := h.counted
  early := h.early
  idle same := by rcases ending with rfl | rfl <;> cases same
  onTime same := by rcases ending with rfl | rfl <;> cases same
  ending _ := late
  failed same := by rcases ending with rfl | rfl <;> cases same

theorem leave_eq (executor : Executor) :
    ∃ stage : Stage, executor.leave = { executor with stage } ∧
      (stage = .draining ∨ stage = .ended) := by
  unfold Executor.leave
  rcases settleStage_cases { executor with stage := .draining } with same | ⟨-, -, ended⟩
  · exact ⟨.draining, same, Or.inl rfl⟩
  · exact ⟨.ended, ended, Or.inr rfl⟩

/-- A look at a cell that asks for no stop changes nothing but what has been seen. -/
theorem look_keeps {cell : StopCell} (unstopped : cell.isStopped = false) (executor : Executor) :
    Keeps executor (executor.look cell) := by
  unfold look
  split
  · exact ⟨rfl, rfl, rfl, rfl⟩
  · simp only [unstopped, Bool.false_eq_true, if_false]
    exact ⟨rfl, rfl, rfl, rfl⟩

/-- A join does nothing to the pace of an executor, except that one which drains may end. -/
theorem join_eq (executor : Executor) (worker : Nat) :
    ∃ kept, Keeps executor kept ∧
      ((executor.join worker).1 = kept ∨ (executor.join worker).1 = kept.settleStage) := by
  unfold join
  cases executor.landings.find? fun landing => landing.slot.worker == worker with
  | none => exact ⟨executor, .refl executor, Or.inl rfl⟩
  | some landing =>
    obtain ⟨slot, outcome⟩ := landing
    cases outcome with
    | none =>
      refine ⟨_, ?_, Or.inr rfl⟩
      exact ⟨rfl, rfl, rfl, rfl⟩
    | some outcome =>
      refine ⟨_, ?_, Or.inr rfl⟩
      exact ⟨rfl, rfl, rfl, rfl⟩

theorem Paced.inTime_keep (h : Paced terms now executor) (keeps : Keeps executor next) :
    InTime terms now executor next :=
  ⟨h.keep keeps, Or.inl keeps.handled⟩

theorem Paced.settle (h : Paced terms now executor) :
    Paced terms now executor.settleStage := by
  rcases settleStage_cases executor with same | ⟨draining, -, ended⟩
  · rw [same]
    exact h
  · rw [ended]
    exact h.leave (h.ending (Or.inl draining)) (Or.inr rfl)

theorem handled_settleStage (executor : Executor) :
    executor.settleStage.handled = executor.handled := by
  rcases settleStage_cases executor with same | ⟨-, -, ended⟩
  · rw [same]
  · rw [ended]
    rfl

theorem Paced.inTime_join (h : Paced terms now executor) (worker : Nat) :
    InTime terms now executor (executor.join worker).1 := by
  obtain ⟨kept, keeps, same | settled⟩ := join_eq executor worker
  · rw [same]
    exact h.inTime_keep keeps
  · rw [settled]
    exact ⟨(h.keep keeps).settle, Or.inl ((handled_settleStage kept).trans keeps.handled)⟩

/-- A tick is handled when it is due. -/
theorem Paced.inTime_arrive (h : Paced terms now executor)
    (dispatching : executor.stage = .dispatching)
    (early : now < Duration.timerTick terms.duration.nanos) (due : tickDue executor ≤ now) :
    InTime terms now executor executor.arrive.1 := by
  have punctual : tickDue executor = now := Nat.le_antisymm due (h.onTime dispatching).1
  obtain ⟨plan, stage, ticks, handled⟩ : executor.arrive.1.plan = executor.plan ∧
      executor.arrive.1.stage = executor.stage ∧
      executor.arrive.1.ticks = executor.ticks + 1 ∧
      executor.arrive.1.handled = executor.handled + 1 := by
    unfold Executor.arrive
    cases executor.free with
    | nil => exact ⟨rfl, rfl, rfl, rfl⟩
    | cons slot rest => exact ⟨rfl, rfl, rfl, Nat.add_right_comm _ 1 _⟩
  refine ⟨⟨?_, ?_, ?_, ?_, ?_, ?_⟩, Or.inr ⟨handled, punctual⟩⟩
  · rw [ticks, handled, h.counted]
  · rw [ticks, plan]
    intro round before
    rcases Nat.lt_succ_iff_lt_or_eq.mp before with before | rfl
    · exact h.early round before
    · exact Nat.lt_of_le_of_lt due early
  · rw [stage, dispatching]
    intro idle
    cases idle
  · intro _
    have next : tickDue executor ≤ tickDue executor.arrive.1 := by
      rw [tickDue, tickDue, ticks, plan]
      exact roundDue_mono (Nat.le_succ _) _
    exact ⟨punctual ▸ next, Nat.le_of_lt early⟩
  · rw [stage, dispatching]
    intro ending
    rcases ending with ending | ending <;> cases ending
  · rw [stage, dispatching]
    intro failed
    cases failed

section Perform

variable {cell : StopCell} {due : Due} {choice : Choice}

/-- An executor starts at the time zero, or fails if its clock cannot be set up. -/
theorem Paced.perform_idle (h : Paced terms now executor) (stage : executor.stage = .idle)
    (unstopped : cell.isStopped = false)
    (clock : due.clock = executor.plan.paceable terms.instant terms.duration)
    (chosen : executor.choose cell due = some choice) :
    InTime terms now executor (executor.perform cell choice).1 := by
  obtain ⟨atStart, none⟩ := h.idle stage
  simp only [choose, stage, Option.some.injEq] at chosen
  by_cases pace : due.clock = true
  · obtain rfl : .enter = choice := by simpa [pace] using chosen
    simp only [Executor.perform, stage, unstopped, Bool.false_eq_true, if_false]
    refine ⟨⟨h.counted, h.early, by simp, ?_, by simp, by simp⟩, Or.inl rfl⟩
    intro _
    rw [atStart]
    exact ⟨Nat.zero_le _, Nat.zero_le _⟩
  · obtain rfl : .fail = choice := by simpa [pace] using chosen
    simp only [Executor.perform, stage]
    have unpaced : executor.plan.paceable terms.instant terms.duration = false := by
      simpa [clock] using pace
    exact ⟨⟨h.counted, h.early, by simp, by simp, by simp, fun _ => unpaced⟩, Or.inl rfl⟩

/-- What goes before a tick takes no time, and the deadline goes before all. -/
theorem Paced.perform_dispatching (h : Paced terms now executor)
    (stage : executor.stage = .dispatching) (unstopped : cell.isStopped = false)
    (deadline : due.deadline = true ↔ Duration.timerTick terms.duration.nanos ≤ now)
    (tick : due.tick = true ↔ tickDue executor ≤ now)
    (chosen : executor.choose cell due = some choice) :
    InTime terms now executor (executor.perform cell choice).1 := by
  simp only [choose, stage] at chosen
  split at chosen
  next late =>
    cases chosen
    simp only [Executor.perform, stage]
    obtain ⟨stage', left, ending⟩ := leave_eq executor
    rw [left]
    have reached := Nat.le_trans (deadline.mp late) (h.onTime stage).1
    exact ⟨h.leave reached ending, Or.inl rfl⟩
  next early =>
    split at chosen
    next =>
      cases chosen
      simp only [Executor.perform, stage]
      exact h.inTime_keep (look_keeps unstopped executor)
    next =>
      cases landings : executor.landings with
      | cons landing rest =>
        rw [landings] at chosen
        cases chosen
        simp only [Executor.perform, stage]
        exact h.inTime_join landing.slot.worker
      | nil =>
        rw [landings] at chosen
        dsimp only at chosen
        split at chosen
        next ticking =>
          cases chosen
          simp only [Executor.perform, stage]
          have early : now < Duration.timerTick terms.duration.nanos := by
            rw [deadline] at early
            exact Nat.lt_of_not_le early
          exact h.inTime_arrive stage early (tick.mp ticking)
        next => cases chosen

theorem Paced.perform_draining (h : Paced terms now executor)
    (stage : executor.stage = .draining) (chosen : executor.choose cell due = some choice) :
    InTime terms now executor (executor.perform cell choice).1 := by
  simp only [choose, stage] at chosen
  cases landings : executor.landings with
  | cons landing rest =>
    rw [landings] at chosen
    cases chosen
    simp only [Executor.perform, stage]
    exact h.inTime_join landing.slot.worker
  | nil =>
    rw [landings] at chosen
    dsimp only at chosen
    split at chosen
    next =>
      cases chosen
      simp only [Executor.perform, stage]
      have late := h.ending (Or.inl stage)
      exact ⟨⟨h.counted, h.early, by simp [giveUp], by simp [giveUp], fun _ => late,
        by simp [giveUp]⟩, Or.inl rfl⟩
    next => cases chosen

/-- Of the steps that are possible, the one which comes first keeps the pace. -/
theorem Paced.perform (h : Paced terms now executor) (unstopped : cell.isStopped = false)
    (clock : due.clock = executor.plan.paceable terms.instant terms.duration)
    (deadline : due.deadline = true ↔ Duration.timerTick terms.duration.nanos ≤ now)
    (tick : due.tick = true ↔ tickDue executor ≤ now)
    (chosen : executor.choose cell due = some choice) :
    InTime terms now executor (executor.perform cell choice).1 := by
  cases stage : executor.stage with
  | idle => exact h.perform_idle stage unstopped clock chosen
  | dispatching => exact h.perform_dispatching stage unstopped deadline tick chosen
  | draining => exact h.perform_draining stage chosen
  | ended => simp [choose, stage] at chosen
  | failed => simp [choose, stage] at chosen

end Perform

/-- An executor that has nothing to do is not at its start, and waits for its timers. -/
theorem timers_of_idle {cell : StopCell} {due : Due} (idle : executor.choose cell due = none) :
    executor.stage ≠ .idle ∧
      (executor.stage = .dispatching → due.deadline = false ∧ due.tick = false) ∧
      (executor.stage = .draining → due.grace = false) := by
  refine ⟨?_, ?_, ?_⟩
  · intro stage
    simp [choose, stage] at idle
  · intro stage
    simp only [choose, stage] at idle
    split at idle
    next => cases idle
    next early =>
      split at idle
      next => cases idle
      next =>
        split at idle
        next => cases idle
        next => exact ⟨by simpa using early, by simpa using idle⟩
  · intro stage
    simp only [choose, stage] at idle
    split at idle
    next => cases idle
    next => simpa using idle

/-- Time may pass for an executor that has nothing to do, as long as none of its timers fires. -/
theorem Paced.wait {later : Nat} (h : Paced terms now executor)
    (busy : executor.stage ≠ .idle)
    (timely : executor.stage = .dispatching →
      later ≤ tickDue executor ∧ later ≤ Duration.timerTick terms.duration.nanos) :
    Paced terms later executor :=
  ⟨h.counted, h.early, fun idle => absurd idle busy, timely, h.ending, h.failed⟩

/-- An executor that has left off has handled just the arrivals that were due before its
deadline. -/
theorem Paced.handled_iff (h : Paced terms now executor)
    (ending : executor.stage = .draining ∨ executor.stage = .ended) (round : Nat) :
    round < executor.handled ↔
      roundDue round executor.plan.period < Duration.timerTick terms.duration.nanos := by
  rw [← h.counted]
  constructor
  · exact h.early round
  · intro due
    by_contra behind
    have later := roundDue_mono (Nat.le_of_not_lt behind) executor.plan.period
    exact Nat.lt_irrefl _ (Nat.lt_of_lt_of_le due (Nat.le_trans (h.ending ending) later))

end Executor

end Cadence
