import Cadence.Proofs.Executor.Vigil
import Mathlib.Algebra.Order.Floor.Div

/-!
# The grounds of a step

What lets an executor choose a step holds as long as the step is not done, whatever happens to the
stop cell and to the iterations meanwhile. Once the step is done, the executor has less before it:
an iteration less to join, a change of the stop cell less to look at, or no more dispatching. Only
an arrival gives it more.
-/

namespace Cadence

open Course

namespace StopChange

/-- A change leaves the cell as it is, or an open cell gets a further version or is closed. -/
theorem apply_cases (change : StopChange) (cell : StopCell) :
    change.apply cell = cell ∨
      (∃ reason, change.apply cell = { cell with reason, version := cell.version + 1 }) ∨
      cell.closed = false ∧ change.apply cell = { cell with closed := true } := by
  cases change with
  | ask reason =>
    rcases ask_cases reason cell with same | ⟨-, -, asked⟩
    · exact Or.inl same
    · exact Or.inr (Or.inl ⟨some reason, asked⟩)
  | put reason =>
    unfold apply
    split
    next => exact Or.inl rfl
    next => exact Or.inr (Or.inl ⟨reason, rfl⟩)
  | close =>
    cases closed : cell.closed with
    | true =>
      unfold apply
      simp [closed]
    | false => exact Or.inr (Or.inr ⟨rfl, close_apply cell⟩)

/-- Versions go up only. -/
theorem version_le_apply (change : StopChange) (cell : StopCell) :
    cell.version ≤ (change.apply cell).version := by
  rcases change.apply_cases cell with same | ⟨reason, put⟩ | ⟨-, closed⟩
  · rw [same]
  · rw [put]
    exact Nat.le_succ _
  · rw [closed]

end StopChange

/-- Whether an iteration is joined. -/
def Deed.isJoin : Deed → Bool
  | .completed .. | .lost _ => true
  | .started _ | .dropped | .abandoned _ => false

namespace Executor

/-- Why a step may be done. A tick is due before the deadline. -/
inductive Grounds (terms : Terms) (cell : StopCell) (executor : Executor) :
    Choice → Prop where
  | enter (idle : executor.stage = .idle)
      (clock : executor.plan.paceable terms.instant terms.duration = true) :
      Grounds terms cell executor .enter
  | fail (idle : executor.stage = .idle)
      (clock : executor.plan.paceable terms.instant terms.duration = false) :
      Grounds terms cell executor .fail
  | deadline (dispatching : executor.stage = .dispatching) :
      Grounds terms cell executor .deadline
  | look (dispatching : executor.stage = .dispatching) (watching : executor.watching = true)
      (changed : cell.closed = true ∨ cell.version ≠ executor.seen) :
      Grounds terms cell executor .look
  | join (landing : Landing) (landed : landing ∈ executor.landings)
      (working : executor.stage = .dispatching ∨ executor.stage = .draining) :
      Grounds terms cell executor (.join landing.slot.worker)
  | tick (dispatching : executor.stage = .dispatching)
      (early : tickDue executor < Duration.timerTick terms.duration.nanos) :
      Grounds terms cell executor .tick
  | graceOver (draining : executor.stage = .draining) : Grounds terms cell executor .graceOver

/-- What an executor has before it if no arrival comes: iterations to join, changes of the stop cell
to look at, and the end of its dispatching. -/
def backlog (cell : StopCell) (executor : Executor) : Nat :=
  executor.inFlight + (cell.version - executor.seen) + (executor.watching && cell.closed).toNat +
    (!executor.hasLeft).toNat

variable {terms : Terms} {cell : StopCell} {executor next : Executor} {choice : Choice}

/-- Whoever subscribes to a cell has seen its changes, but for its end. -/
theorem backlog_subscribe (plan : Plan) (cell : StopCell) :
    backlog cell (subscribe plan cell) = cell.closed.toNat + 1 := by
  simp [backlog, subscribe, inFlight, hasLeft]

/-- A step that is chosen has its grounds. -/
theorem grounds_of_choose {due : Due} {now : Nat}
    (clock : due.clock = executor.plan.paceable terms.instant terms.duration)
    (deadline : due.deadline = decide (Duration.timerTick terms.duration.nanos ≤ now))
    (tick : due.tick = decide (tickDue executor ≤ now))
    (chosen : executor.choose cell due = some choice) :
    Grounds terms cell executor choice := by
  unfold choose at chosen
  cases stage : executor.stage with
  | idle =>
    simp only [stage, Option.some.injEq] at chosen
    split at chosen
    next sound =>
      cases chosen
      exact .enter stage (clock ▸ sound)
    next broken =>
      cases chosen
      exact .fail stage (by simpa [clock] using broken)
  | dispatching =>
    simp only [stage] at chosen
    split at chosen
    next => cases chosen; exact .deadline stage
    next early =>
      split at chosen
      next changed =>
        cases chosen
        obtain ⟨watching, changed⟩ := Bool.and_eq_true_iff.mp changed
        exact .look stage watching (by simpa [or_comm] using changed)
      next =>
        split at chosen
        next landing _ landings =>
          cases chosen
          exact .join landing (landings ▸ List.mem_cons_self ..) (Or.inl stage)
        next =>
          split at chosen
          next ticking =>
            cases chosen
            rw [deadline, decide_eq_true_eq] at early
            rw [tick, decide_eq_true_eq] at ticking
            exact .tick stage (Nat.lt_of_le_of_lt ticking (Nat.lt_of_not_le early))
          next => cases chosen
  | draining =>
    simp only [stage] at chosen
    split at chosen
    next landing _ landings =>
      cases chosen
      exact .join landing (landings ▸ List.mem_cons_self ..) (Or.inr stage)
    next =>
      split at chosen
      next => cases chosen; exact .graceOver stage
      next => cases chosen
  | ended => simp [stage] at chosen
  | failed => simp [stage] at chosen

/-- At its start an executor begins, or fails because its clock cannot be set up. -/
theorem Grounds.of_idle (grounds : Grounds terms cell executor choice)
    (idle : executor.stage = .idle) :
    choice = .enter ∧ executor.plan.paceable terms.instant terms.duration = true ∨
      choice = .fail ∧ executor.plan.paceable terms.instant terms.duration = false := by
  cases grounds with
  | enter _ clock => exact Or.inl ⟨rfl, clock⟩
  | fail _ clock => exact Or.inr ⟨rfl, clock⟩
  | deadline dispatching => cases idle.symm.trans dispatching
  | look dispatching watching changed => cases idle.symm.trans dispatching
  | join landing landed working => simp [idle] at working
  | tick dispatching early => cases idle.symm.trans dispatching
  | graceOver draining => cases idle.symm.trans draining

/-- There are no grounds for a step of an executor that is done. -/
theorem Grounds.not_isDone (grounds : Grounds terms cell executor choice) :
    ¬executor.IsDone := by
  cases grounds with
  | enter idle clock => simp [IsDone, idle]
  | fail idle clock => simp [IsDone, idle]
  | deadline dispatching => simp [IsDone, dispatching]
  | look dispatching watching changed => simp [IsDone, dispatching]
  | join landing landed working => rcases working with stage | stage <;> simp [IsDone, stage]
  | tick dispatching early => simp [IsDone, dispatching]
  | graceOver draining => simp [IsDone, draining]

/-- Whatever happens to the stop cell takes nothing from the grounds of a step. -/
theorem Grounds.change (grounds : Grounds terms cell executor choice)
    (seen : executor.seen ≤ cell.version) (change : StopChange) :
    Grounds terms (change.apply cell) executor choice := by
  cases grounds with
  | enter idle clock => exact .enter idle clock
  | fail idle clock => exact .fail idle clock
  | deadline dispatching => exact .deadline dispatching
  | look dispatching watching changed =>
    refine .look dispatching watching ?_
    rcases change.apply_cases cell with same | ⟨reason, put⟩ | ⟨-, closed⟩
    · rwa [same]
    · rw [put]
      exact Or.inr (Nat.ne_of_gt (Nat.lt_succ_of_le seen))
    · rw [closed]
      exact Or.inl rfl
  | join landing landed working => exact .join landing landed working
  | tick dispatching early => exact .tick dispatching early
  | graceOver draining => exact .graceOver draining

section Nudge

variable {worker : Nat} {stimulus : Stimulus} {leg : Option Leg}

/-- What has landed waits for its join. -/
theorem Nudge.landings_subset (nudge : Nudge executor worker stimulus leg next) :
    executor.landings ⊆ next.landings := by
  cases nudge with
  | landed => exact List.subset_append_left _ _
  | idle => exact List.Subset.refl _
  | goesOn => exact List.Subset.refl _
  | vanished => exact List.Subset.refl _

/-- Iterations that go on take nothing from the grounds of a step either. -/
theorem Grounds.nudge (grounds : Grounds terms cell executor choice)
    (nudge : Nudge executor worker stimulus leg next) : Grounds terms cell next choice := by
  obtain ⟨plan, stage, ticks, -⟩ := nudge.frame
  obtain ⟨-, seen, watching, -⟩ := nudge.vigil
  cases grounds with
  | enter idle clock => exact .enter (stage.trans idle) (plan ▸ clock)
  | fail idle clock => exact .fail (stage.trans idle) (plan ▸ clock)
  | deadline dispatching => exact .deadline (stage.trans dispatching)
  | look dispatching watches changed =>
    exact .look (stage.trans dispatching) (watching.trans watches) (seen ▸ changed)
  | join landing landed working =>
    exact .join landing (nudge.landings_subset landed) (stage ▸ working)
  | tick dispatching early =>
    refine .tick (stage.trans dispatching) ?_
    rwa [tickDue, ticks, plan]
  | graceOver draining => exact .graceOver (stage.trans draining)

theorem Nudge.inFlight (nudge : Nudge executor worker stimulus leg next) :
    next.inFlight = executor.inFlight := by
  rw [inFlight_eq_length_pending, inFlight_eq_length_pending, nudge.pending_perm.length_eq]

theorem Nudge.backlog (nudge : Nudge executor worker stimulus leg next) :
    backlog cell next = backlog cell executor := by
  obtain ⟨stage, seen, watching, -⟩ := nudge.vigil
  unfold Executor.backlog hasLeft
  rw [nudge.inFlight, stage, seen, watching]

end Nudge

/-- A change of the stop cell is one thing more to look at. -/
theorem backlog_change_le (change : StopChange) (cell : StopCell) (executor : Executor) :
    backlog (change.apply cell) executor ≤
      backlog cell executor + (change.apply cell != cell).toNat := by
  rcases change.apply_cases cell with same | ⟨reason, put⟩ | ⟨opened, closed⟩
  · rw [same]
    exact Nat.le_add_right _ _
  · have altered : (change.apply cell != cell) = true := by
      rw [put, bne_iff_ne]
      exact fun same => Nat.succ_ne_self _ (congrArg StopCell.version same)
    rw [altered, put, backlog, backlog, Bool.toNat_true]
    dsimp only
    omega
  · have altered : (change.apply cell != cell) = true := by
      rw [closed, bne_iff_ne]
      exact fun same => by simpa [opened] using congrArg StopCell.closed same
    have most := (executor.watching && true).toNat_le
    rw [altered, closed, backlog, backlog, Bool.toNat_true]
    dsimp only
    omega

theorem perform_look (dispatching : executor.stage = .dispatching) (cell : StopCell) :
    (executor.perform cell .look).1 = executor.look cell := by
  simp [perform, dispatching]

/-- An executor sees no version of the stop cell before it is there. -/
theorem seen_perform_le (seen : executor.seen ≤ cell.version) (choice : Choice) :
    (executor.perform cell choice).1.seen ≤ cell.version := by
  by_cases looks : choice = .look
  · subst looks
    by_cases dispatching : executor.stage = .dispatching
    · rw [perform_look dispatching]
      unfold look
      split
      · exact seen
      · dsimp only
        split
        · exact Nat.le_of_eq (watch_leave { executor with seen := cell.version }).1
        · exact Nat.le_refl _
    · have performed : (executor.perform cell .look).1 = executor := by
        unfold perform
        split <;> simp_all
      rwa [performed]
  · rwa [(watch_perform executor cell looks).1]

/-- A tick that is handled is due before the deadline. -/
theorem Grounds.early (grounds : Grounds terms cell executor choice)
    (arrival : (executor.deed? choice).any Deed.isArrival = true) :
    tickDue executor < Duration.timerTick terms.duration.nanos := by
  rw [← handlesTick_step executor cell] at arrival
  cases grounds with
  | tick dispatching early => exact early
  | _ => cases arrival

/-- A deed keeps the slots of an executor together: what is in flight and what is free is never
more than it was, and what is in flight is more only by an arrival. -/
theorem Turn.inFlight {deed : Option Deed} (turn : Turn executor deed next) :
    next.free.length + next.inFlight ≤ executor.free.length + executor.inFlight ∧
      next.inFlight + (deed.any Deed.isJoin).toNat ≤
        executor.inFlight + (deed.any Deed.isArrival).toNat := by
  cases turn with
  | quiet => exact ⟨Nat.le_refl _, Nat.le_refl _⟩
  | dropped => exact ⟨Nat.le_refl _, Nat.le_succ _⟩
  | started dispatching slot rest free =>
    simp only [Executor.inFlight, free, List.length_cons, Option.any_some, Deed.isJoin,
      Deed.isArrival, Bool.toNat_false, Bool.toNat_true]
    omega
  | completed before after slot outcome stage landed =>
    simp only [Executor.inFlight, landed, List.length_append, List.length_cons, Option.any_some,
      Deed.isJoin, Deed.isArrival, Bool.toNat_false, Bool.toNat_true]
    omega
  | lost before after slot stage landed =>
    simp only [Executor.inFlight, landed, List.length_append, List.length_cons, Option.any_some,
      Deed.isJoin, Deed.isArrival, Bool.toNat_false, Bool.toNat_true]
    omega
  | abandoned draining =>
    exact ⟨Nat.le_add_right _ _, Nat.zero_le _⟩

/-- What bounds the work of an executor: the ticks that are due before the deadline, and its
slots. -/
structure Bounded (terms : Terms) (executor : Executor) : Prop where
  counted : executor.ticks = executor.handled
  early : ∀ round < executor.ticks,
    roundDue round executor.plan.period < Duration.timerTick terms.duration.nanos
  pool : executor.free.length + executor.inFlight ≤ executor.plan.workers

theorem bounded_subscribe (terms : Terms) (plan : Plan) (cell : StopCell) :
    Bounded terms (subscribe plan cell) where
  counted := rfl
  early round before := absurd before (Nat.not_lt_zero round)
  pool := by simp [subscribe, Executor.inFlight]

theorem Bounded.perform (bounded : Bounded terms executor)
    (grounds : Grounds terms cell executor choice) :
    Bounded terms (executor.perform cell choice).1 := by
  have turn := perform_turn executor cell choice
  refine ⟨?_, ?_, ?_⟩
  · rw [turn.ticks, turn.counts.2.2, bounded.counted]
  · rw [turn.ticks, turn.plan]
    intro round before
    rcases Nat.lt_or_ge round executor.ticks with earlier | behind
    · exact bounded.early round earlier
    · cases arrival : (executor.deed? choice).any Deed.isArrival with
      | true =>
        rw [arrival] at before
        obtain rfl : round = executor.ticks := Nat.le_antisymm (Nat.lt_succ_iff.mp before) behind
        exact grounds.early arrival
      | false =>
        rw [arrival] at before
        exact absurd before (Nat.not_lt_of_le behind)
  · rw [turn.plan]
    exact Nat.le_trans turn.inFlight.1 bounded.pool

theorem Bounded.nudge (bounded : Bounded terms executor) {worker : Nat} {stimulus : Stimulus}
    {leg : Option Leg} (nudge : Nudge executor worker stimulus leg next) :
    Bounded terms next := by
  obtain ⟨plan, -, ticks, free, -⟩ := nudge.frame
  refine ⟨?_, ?_, ?_⟩
  · rw [ticks, nudge.keeps.handled, bounded.counted]
  · rw [ticks, plan]
    exact bounded.early
  · rw [free, nudge.inFlight, plan]
    exact bounded.pool

/-- There are as many arrivals as periods have begun before the duration is over, at most. -/
theorem Bounded.handled_le (bounded : Bounded terms executor)
    (spaced : 0 < executor.plan.period.nanos) :
    executor.handled ≤ terms.duration.nanos ⌈/⌉ executor.plan.period.nanos := by
  rw [← bounded.counted]
  cases ticks : executor.ticks with
  | zero => exact Nat.zero_le _
  | succ last =>
    have due := bounded.early last (ticks ▸ Nat.lt_succ_self last)
    have begun := Duration.lt_of_timerTick_lt due
    by_contra more
    rw [Nat.not_le, Nat.lt_succ_iff, ceilDiv_le_iff_le_mul spaced, Nat.mul_comm] at more
    exact absurd begun (Nat.not_lt_of_le more)

/-- A join that has its grounds joins an iteration. -/
theorem isJoin_of_landed {landing : Landing} (landed : landing ∈ executor.landings)
    (working : executor.stage = .dispatching ∨ executor.stage = .draining) :
    (executor.deed? (.join landing.slot.worker)).any Deed.isJoin = true := by
  rw [deed?_join executor _ working]
  cases found : executor.landings.find? fun other => other.slot.worker == landing.slot.worker with
  | none => simpa using List.find?_eq_none.mp found landing landed
  | some first =>
    obtain ⟨slot, outcome⟩ := first
    cases outcome <;> rfl

/-- A step that is no look at the stop cell: a join and the end of the dispatching take something off
the backlog, and only an arrival adds to it. -/
theorem backlog_perform_other (executor : Executor) (cell : StopCell) {choice : Choice}
    (other : choice ≠ .look) :
    backlog cell (executor.perform cell choice).1 +
        ((executor.deed? choice).any Deed.isJoin).toNat +
        (!executor.hasLeft && (executor.leave? (.step cell choice)).isSome).toNat ≤
      backlog cell executor + ((executor.deed? choice).any Deed.isArrival).toNat := by
  have flying := (perform_turn executor cell choice).inFlight.2
  obtain ⟨seen, watching⟩ := watch_perform executor cell other
  have left : (!(executor.perform cell choice).1.hasLeft).toNat +
      (!executor.hasLeft && (executor.leave? (.step cell choice)).isSome).toNat =
        (!executor.hasLeft).toNat := by
    rw [hasLeft_perform]
    cases executor.hasLeft <;> cases (executor.leave? (.step cell choice)).isSome <;> rfl
  rw [backlog, backlog, seen, watching]
  omega

/-- A look at a stop cell that has changed leaves less to look at. -/
theorem backlog_look_lt (seen : executor.seen ≤ cell.version)
    (watching : executor.watching = true)
    (changed : cell.closed = true ∨ cell.version ≠ executor.seen) :
    backlog cell (executor.look cell) < backlog cell executor := by
  unfold look
  split
  next same =>
    have closed := changed.resolve_right (not_not_intro same)
    simp [backlog, hasLeft, inFlight, watching, closed]
  next unseen =>
    have behind : executor.seen < cell.version := Nat.lt_of_le_of_ne seen (Ne.symm unseen)
    dsimp only
    split
    · obtain ⟨stage, left, -⟩ := leave_eq { executor with seen := cell.version }
      have ended := hasLeft_leave { executor with seen := cell.version }
      rw [left] at ended ⊢
      simp only [backlog, inFlight, ended, Nat.sub_self, Bool.not_true, Bool.toNat_false]
      omega
    · simp only [backlog, inFlight, hasLeft, Nat.sub_self]
      omega

/-- While dispatching, a step that is no look joins an iteration, handles an arrival or leaves
off. -/
theorem Grounds.progress (grounds : Grounds terms cell executor choice)
    (other : choice ≠ .look) :
    (executor.stage == .dispatching).toNat ≤
      ((executor.deed? choice).any Deed.isJoin).toNat +
        (!executor.hasLeft && (executor.leave? (.step cell choice)).isSome).toNat +
        ((executor.deed? choice).any Deed.isArrival).toNat := by
  cases grounds with
  | enter idle clock => exact idle ▸ Nat.zero_le _
  | fail idle clock => exact idle ▸ Nat.zero_le _
  | deadline dispatching => simp [deed?, leave?, hasLeft, dispatching]
  | look dispatching watching changed => exact absurd rfl other
  | join landing landed working =>
    rw [isJoin_of_landed landed working, Nat.add_assoc]
    exact Nat.le_trans (Bool.toNat_le _) (Nat.le_add_right _ _)
  | tick dispatching early =>
    rw [← handlesTick_step executor cell, handlesTick, dispatching]
    exact Nat.le_add_left _ _
  | graceOver draining => exact draining ▸ Nat.zero_le _

/-- A round of the dispatching takes one off the backlog. If it handles an arrival, two are granted:
one for the round, one for the join of the iteration. -/
theorem Grounds.backlog_perform (grounds : Grounds terms cell executor choice)
    (seen : executor.seen ≤ cell.version) :
    (executor.stage == .dispatching).toNat + backlog cell (executor.perform cell choice).1 +
        2 * executor.handled ≤
      backlog cell executor + 2 * (executor.perform cell choice).1.handled := by
  have handled := (perform_turn executor cell choice).counts.2.2
  -- A look pays with what it has seen, any other step with its deed or by leaving off.
  by_cases looks : choice = .look
  · subst looks
    cases grounds with
    | look dispatching watching changed =>
      have less := backlog_look_lt seen watching changed
      rw [perform_look dispatching] at handled ⊢
      have most := (executor.stage == .dispatching).toNat_le
      omega
  · have paid := backlog_perform_other executor cell looks
    have progress := grounds.progress looks
    omega

/-- Iterations that an executor may still join once it has left off. -/
def reserve (executor : Executor) : Nat :=
  if executor.hasLeft then executor.inFlight else executor.plan.workers

theorem Nudge.reserve {worker : Nat} {stimulus : Stimulus} {leg : Option Leg}
    (nudge : Nudge executor worker stimulus leg next) : next.reserve = executor.reserve := by
  obtain ⟨plan, stage, -⟩ := nudge.frame
  unfold Executor.reserve hasLeft
  rw [nudge.inFlight, plan, stage]

/-- A join of the drain takes one off the reserve, and no step adds to it. -/
theorem Bounded.reserve_perform (bounded : Bounded terms executor) (cell : StopCell)
    (choice : Choice) :
    (executor.hasLeft && (executor.deed? choice).any Deed.isJoin).toNat +
        (executor.perform cell choice).1.reserve ≤ executor.reserve := by
  have turn := perform_turn executor cell choice
  obtain ⟨kept, flying⟩ := turn.inFlight
  have pool := bounded.pool
  unfold reserve
  rw [turn.plan, hasLeft_perform]
  cases left : executor.hasLeft with
  | true =>
    -- Only while dispatching an arrival could add to what is in flight.
    have away : executor.stage ≠ .dispatching := by
      intro dispatching
      simp [hasLeft, dispatching] at left
    have quiet : (executor.deed? choice).any Deed.isArrival = false := by
      rw [← handlesTick_step executor cell]
      unfold handlesTick
      cases choice <;> simp [away]
    simp only [quiet, Bool.toNat_false] at flying
    simp only [Bool.true_and, Bool.true_or, if_true]
    omega
  | false =>
    simp only [Bool.false_and, Bool.toNat_false, Bool.false_or, Bool.false_eq_true, if_false]
    split <;> omega

end Executor

end Cadence
