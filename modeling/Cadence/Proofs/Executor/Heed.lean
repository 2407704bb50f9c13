import Cadence.Proofs.Executor.Accounts
import Cadence.Proofs.Executor.Pacing
import Cadence.Proofs.Executor.Stage

/-!
# Executors heed the stop cell

The version of the stop cell that an executor has seen last is the present one as long as there is
no reason in the cell. An executor that dispatches although there is one has a change before it
which it has not seen, and watches for it. Every step of the executor keeps that, and so does every
stop that is asked for.
-/

namespace Cadence

/-- A round of an executor: the timers that were due as it began, and the step it has come to. -/
structure Round where
  due : Due
  choice : Choice

/-- What the choice of a round tells of the executor and the cell until the step is done. -/
structure Round.Meets (round : Round) (cell : StopCell) (executor : Executor) : Prop where
  tick : round.choice = .tick → executor.stage = .dispatching
  look : round.choice = .look → cell.closed = true ∨ cell.version ≠ executor.seen
  deadline : round.choice = .deadline → round.due.deadline = true

namespace StopChange

/-- Asking for a stop changes nothing, or gives an open cell its reason and a further version. -/
theorem ask_cases (reason : String) (cell : StopCell) :
    (ask reason).apply cell = cell ∨ cell.closed = false ∧ cell.isStopped = false ∧
      (ask reason).apply cell =
        { cell with reason := some reason, version := cell.version + 1 } := by
  obtain ⟨held, version, closed⟩ := cell
  cases closed with
  | true => exact Or.inl rfl
  | false =>
    cases held with
    | some first => exact Or.inl rfl
    | none => exact Or.inr ⟨rfl, rfl, rfl⟩

theorem close_apply (cell : StopCell) : close.apply cell = { cell with closed := true } := by
  unfold apply
  split
  next closed => rw [← closed]
  next => rfl

end StopChange

namespace Executor

variable {executor next : Executor}

theorem Turn.counts {deed : Option Deed} (turn : Turn executor deed next) :
    executor.counters.dispatched ≤ next.counters.dispatched ∧
      executor.counters.dropped ≤ next.counters.dropped ∧
      next.handled = executor.handled + (deed.any Deed.isArrival).toNat := by
  cases turn with
  | quiet => exact ⟨Nat.le_refl _, Nat.le_refl _, rfl⟩
  | dropped => exact ⟨Nat.le_refl _, Nat.le_succ _, rfl⟩
  | started => exact ⟨Nat.le_succ _, Nat.le_refl _, Nat.add_right_comm _ 1 _⟩
  | completed => exact ⟨Nat.le_refl _, Nat.le_refl _, rfl⟩
  | lost => exact ⟨Nat.le_refl _, Nat.le_refl _, rfl⟩
  | abandoned => exact ⟨Nat.le_refl _, Nat.le_refl _, rfl⟩

/-- Only a tick handles an arrival. -/
theorem handled_perform_le (executor : Executor) (cell : StopCell) (choice : Choice) :
    (executor.perform cell choice).1.handled ≤ executor.handled + (choice == .tick).toNat := by
  rw [(perform_turn executor cell choice).counts.2.2, ← handlesTick_step executor cell]
  refine Nat.add_le_add_left ?_ _
  cases choice with
  | tick => exact Bool.toNat_le _
  | _ => exact Nat.zero_le _

/-- Settling the stage leaves what has been seen of the stop cell. -/
theorem watch_settleStage (executor : Executor) :
    executor.settleStage.seen = executor.seen ∧
      executor.settleStage.watching = executor.watching := by
  obtain ⟨stage, same, -⟩ := settleStage_eq executor
  rw [same]
  exact ⟨rfl, rfl⟩

theorem watch_leave (executor : Executor) :
    executor.leave.seen = executor.seen ∧ executor.leave.watching = executor.watching :=
  watch_settleStage { executor with stage := .draining }

theorem watch_join (executor : Executor) (worker : Nat) :
    (executor.join worker).1.seen = executor.seen ∧
      (executor.join worker).1.watching = executor.watching := by
  unfold join
  split
  · exact ⟨rfl, rfl⟩
  · dsimp only
    split
    · exact watch_settleStage _
    · exact watch_settleStage _

/-- Only a look at the stop cell changes what has been seen of it. -/
theorem watch_perform (executor : Executor) (cell : StopCell) {choice : Choice}
    (other : choice ≠ .look) :
    (executor.perform cell choice).1.seen = executor.seen ∧
      (executor.perform cell choice).1.watching = executor.watching := by
  unfold perform
  split
  case h_1 =>
    dsimp only
    split
    · exact watch_leave executor
    · exact ⟨rfl, rfl⟩
  case h_3 => exact watch_leave executor
  case h_4 => exact absurd rfl other
  case h_5 worker _ => exact watch_join executor worker
  case h_6 worker _ => exact watch_join executor worker
  case h_7 => unfold arrive; split <;> exact ⟨rfl, rfl⟩
  all_goals exact ⟨rfl, rfl⟩

/-- An executor stays in its stage, leaves off, or begins. -/
theorem stage_perform (executor : Executor) (cell : StopCell) (choice : Choice) :
    (executor.perform cell choice).1.stage = executor.stage ∨
      (executor.perform cell choice).1.hasLeft = true ∨
      executor.stage = .idle ∧ ((executor.perform cell choice).1.stage = .failed ∨
        (executor.perform cell choice).1.stage = .dispatching ∧ cell.isStopped = false) := by
  have joined (worker : Nat) : (executor.join worker).1.stage = executor.stage ∨
      (executor.join worker).1.hasLeft = true := by
    obtain ⟨kept, keeps, same | settled⟩ := join_eq executor worker
    · exact Or.inl (same ▸ keeps.stage)
    · rw [settled]
      rcases settleStage_cases kept with same | ⟨-, -, ended⟩
      · rw [same]
        exact Or.inl keeps.stage
      · rw [ended]
        exact Or.inr rfl
  unfold perform
  split
  case h_1 idle =>
    cases stopped : cell.isStopped with
    | true => simp
    | false => simp [idle]
  case h_2 idle => exact Or.inr (Or.inr ⟨idle, Or.inl rfl⟩)
  case h_3 => exact Or.inr (Or.inl (hasLeft_leave executor))
  case h_4 =>
    unfold look
    split
    · exact Or.inl rfl
    · dsimp only
      split
      · exact Or.inr (Or.inl (hasLeft_leave _))
      · exact Or.inl rfl
  case h_5 worker _ => exact (joined worker).imp_right Or.inl
  case h_6 worker _ => exact (joined worker).imp_right Or.inl
  case h_7 => unfold arrive; split <;> exact Or.inl rfl
  case h_8 => exact Or.inr (Or.inl rfl)
  case h_9 => exact Or.inl rfl

/-- Once there is a reason, an executor that dispatches has done so before. -/
theorem dispatching_of_perform {cell : StopCell} {choice : Choice} (stopped : cell.isStopped = true)
    (dispatching : (executor.perform cell choice).1.stage = .dispatching) :
    executor.stage = .dispatching := by
  rcases stage_perform executor cell choice with same | left | ⟨-, failed | ⟨-, unstopped⟩⟩
  · exact same.symm.trans dispatching
  · simp [hasLeft, dispatching] at left
  · cases failed.symm.trans dispatching
  · cases stopped.symm.trans unstopped

/-- Without a reason only the deadline makes an executor leave off. -/
theorem elapsed_of_leave? {cell : StopCell} {choice : Choice} (unstopped : cell.isStopped = false)
    (left : (executor.leave? (.step cell choice)).isSome = true) :
    executor.stage = .dispatching ∧ choice = .deadline := by
  simp only [leave?, unstopped] at left
  split at left
  next => cases left
  next dispatching => exact ⟨dispatching, rfl⟩
  next => simp at left
  next => cases left

/-- An iteration that goes on changes nothing that a vigil is about. -/
theorem Nudge.vigil {worker : Nat} {stimulus : Stimulus} {leg : Option Leg}
    (nudge : Nudge executor worker stimulus leg next) :
    next.stage = executor.stage ∧ next.seen = executor.seen ∧
      next.watching = executor.watching ∧ next.counters = executor.counters := by
  cases nudge <;> exact ⟨rfl, rfl, rfl, rfl⟩

/-- Before a change of the stop cell that has not been seen yet, only the deadline goes. -/
theorem choose_of_changed {cell : StopCell} (dispatching : executor.stage = .dispatching)
    (changed : cell.version ≠ executor.seen) (watching : executor.watching = true) (due : Due) :
    executor.choose cell due = some (if due.deadline then .deadline else .look) := by
  simp only [choose, dispatching, watching, bne_iff_ne.mpr changed]
  split <;> rfl

/-- The choice that comes first tells which stage the executor is in and what has gone before. -/
theorem meets_of_choose {cell : StopCell} {due : Due} {choice : Choice}
    (chosen : executor.choose cell due = some choice) :
    Round.Meets ⟨due, choice⟩ cell executor := by
  unfold choose at chosen
  cases stage : executor.stage with
  | idle =>
    simp only [stage, Option.some.injEq] at chosen
    subst chosen
    constructor <;> cases due.clock <;> simp
  | dispatching =>
    simp only [stage] at chosen
    split at chosen
    next late =>
      cases chosen
      exact ⟨fun _ => stage, nofun, fun _ => late⟩
    next =>
      split at chosen
      next changed =>
        cases chosen
        have changed := (Bool.and_eq_true_iff.mp changed).2
        exact ⟨nofun, fun _ => by simpa [or_comm] using changed, nofun⟩
      next =>
        split at chosen
        next => cases chosen; exact ⟨nofun, nofun, nofun⟩
        next =>
          split at chosen
          next => cases chosen; exact ⟨fun _ => stage, nofun, nofun⟩
          next => cases chosen
  | draining =>
    simp only [stage] at chosen
    split at chosen
    next => cases chosen; exact ⟨nofun, nofun, nofun⟩
    next =>
      split at chosen
      next => cases chosen; exact ⟨nofun, nofun, nofun⟩
      next => cases chosen
  | ended => simp [stage] at chosen
  | failed => simp [stage] at chosen

/-- What holds of an executor and the stop cell that it watches at every moment. -/
structure Heeds (cell : StopCell) (executor : Executor) : Prop where
  fresh : executor.stage = .idle → executor.handled = 0
  /-- All of a cell without a reason has been seen. -/
  calm : cell.isStopped = false → executor.seen = cell.version
  /-- As long as the executor dispatches, it has not seen the reason, and watches for it. -/
  warned : executor.stage = .dispatching → cell.isStopped = true →
    cell.version ≠ executor.seen ∧ executor.watching = true
  unwatched : executor.watching = false → cell.closed = true

variable {cell : StopCell} {choice : Choice}

theorem heeds_subscribe (plan : Plan) (cell : StopCell) : (subscribe plan cell).Heeds cell where
  fresh _ := rfl
  calm _ := rfl
  warned dispatching := by cases dispatching
  unwatched away := by cases away

/-- A step that is no look at the cell leaves the reason to be seen, if there is one. -/
theorem Heeds.perform_other (heeds : executor.Heeds cell) (other : choice ≠ .look) :
    (executor.perform cell choice).1.Heeds cell := by
  obtain ⟨seen, watching⟩ := watch_perform executor cell other
  refine ⟨?_, ?_, ?_, ?_⟩
  · intro idle
    have same : executor.stage = .idle := by
      rcases stage_perform executor cell choice with same | left | ⟨same, -⟩
      · exact same.symm.trans idle
      · simp [hasLeft, idle] at left
      · exact same
    have quiet : executor.handlesTick (.step cell choice) = false := by
      unfold handlesTick
      cases choice <;> simp [same]
    rw [(perform_turn executor cell choice).counts.2.2, ← handlesTick_step, quiet,
      heeds.fresh same]
    rfl
  · rw [seen]
    exact heeds.calm
  · intro dispatching stopped
    rw [seen, watching]
    exact heeds.warned (dispatching_of_perform stopped dispatching) stopped
  · rw [watching]
    exact heeds.unwatched

/-- A look at the cell either shows that it is closed, or shows the reason, and then the executor
leaves off. -/
theorem Heeds.look (heeds : executor.Heeds cell) (dispatching : executor.stage = .dispatching)
    (changed : cell.closed = true ∨ cell.version ≠ executor.seen) :
    (executor.look cell).Heeds cell := by
  unfold Executor.look
  split
  next same =>
    refine ⟨heeds.fresh, heeds.calm, ?_, fun _ => changed.resolve_right (not_not_intro same)⟩
    intro _ stopped
    exact absurd same (heeds.warned dispatching stopped).1
  next unseen =>
    -- A version that differs comes from a reason.
    have stopped : cell.isStopped = true := by
      cases stopped : cell.isStopped with
      | true => rfl
      | false => exact absurd (heeds.calm stopped).symm unseen
    obtain ⟨stage, left, ending⟩ := leave_eq { executor with seen := cell.version }
    simp only [stopped, if_true, left]
    refine ⟨?_, ?_, ?_, heeds.unwatched⟩
    · rintro rfl
      simp at ending
    · intro unstopped
      cases stopped.symm.trans unstopped
    · rintro rfl
      simp at ending

theorem Heeds.perform {due : Due} (heeds : executor.Heeds cell)
    (meets : Round.Meets ⟨due, choice⟩ cell executor) :
    (executor.perform cell choice).1.Heeds cell := by
  by_cases looks : choice = .look
  · subst looks
    cases stage : executor.stage with
    | dispatching => simpa [Executor.perform, stage] using heeds.look stage (meets.look rfl)
    | idle => simpa [Executor.perform, stage] using heeds
    | draining => simpa [Executor.perform, stage] using heeds
    | ended => simpa [Executor.perform, stage] using heeds
    | failed => simpa [Executor.perform, stage] using heeds
  · exact heeds.perform_other looks

theorem Heeds.nudge (heeds : executor.Heeds cell) {worker : Nat} {stimulus : Stimulus}
    {leg : Option Leg} (nudge : Nudge executor worker stimulus leg next) : next.Heeds cell := by
  obtain ⟨stage, seen, watching, counters⟩ := nudge.vigil
  have handled : next.handled = executor.handled := by rw [Executor.handled, counters]; rfl
  refine ⟨?_, ?_, ?_, ?_⟩
  · rw [stage, handled]
    exact heeds.fresh
  · rw [seen]
    exact heeds.calm
  · rw [stage, seen, watching]
    exact heeds.warned
  · rw [watching]
    exact heeds.unwatched

/-- A stop that is asked for is a change which the executor has not seen. -/
theorem Heeds.stop (heeds : executor.Heeds cell) (reason : String) :
    executor.Heeds ((StopChange.ask reason).apply cell) := by
  rcases StopChange.ask_cases reason cell with same | ⟨opened, unstopped, changed⟩
  · rw [same]
    exact heeds
  · have seen := heeds.calm unstopped
    -- Who does not watch any more has seen the cell closed, and a closed cell takes no reason.
    have watching : executor.watching = true := by
      cases watching : executor.watching with
      | true => rfl
      | false => cases opened.symm.trans (heeds.unwatched watching)
    rw [changed]
    refine ⟨heeds.fresh, ?_, ?_, heeds.unwatched⟩
    · intro calm
      cases calm
    · intro _ _
      exact ⟨by rw [seen]; exact Nat.succ_ne_self _, watching⟩

/-- A stop that is asked for while a round is going on takes nothing from its choice. -/
theorem Heeds.meets_stop (heeds : executor.Heeds cell) {round : Round}
    (meets : round.Meets cell executor) (reason : String) :
    round.Meets ((StopChange.ask reason).apply cell) executor := by
  rcases StopChange.ask_cases reason cell with same | ⟨-, unstopped, changed⟩
  · rw [same]
    exact meets
  · rw [changed]
    refine ⟨meets.tick, fun _ => Or.inr ?_, meets.deadline⟩
    rw [heeds.calm unstopped]
    exact Nat.succ_ne_self _

end Executor

end Cadence
