import Cadence.Proofs.Executor.Slots
import Cadence.Run

/-!
# The accounts of executors

Every iteration that an executor starts is in flight until it is joined, with an outcome or without,
or abandoned; the counters of the executor count just that, whatever the order of its steps. Slots
are free, in flight or lost to iterations that broke off, as long as the grace period is not over.
-/

namespace Cadence

/-- Whether a tick is what a deed answers. -/
def Deed.isArrival : Deed → Bool
  | .started _ | .dropped => true
  | .completed .. | .lost _ | .abandoned _ => false

namespace Executor

/-- Whether an event is a tick that the executor handles. -/
def handlesTick (executor : Executor) : LaneEvent → Bool
  | .step _ .tick => executor.stage == .dispatching
  | _ => false

/-- The number of ticks handled along a sequence of events. -/
def ticksHandled (executor : Executor) : List LaneEvent → Nat
  | [] => 0
  | event :: events =>
    (executor.handlesTick event).toNat + (executor.apply event).ticksHandled events

/-- The counters of an executor agree with what has become of the iterations it has started. -/
structure Balanced (plan : Plan) (executor : Executor) (deeds : List Deed) : Prop where
  dispatched : executor.counters.dispatched = (starts deeds).length
  completed : executor.counters.completed = (completions deeds).length
  abandoned : executor.counters.abandoned = (losses deeds).length + (abandonments deeds).length
  ticks : executor.ticks = executor.counters.dispatched + executor.counters.dropped
  flow : (starts deeds).Perm
    (completions deeds ++ (losses deeds ++ (abandonments deeds ++ executor.pending)))
  pool : (∀ slots, .abandoned slots ∉ deeds) →
    executor.free.length + executor.pending.length + (losses deeds).length = plan.workers
  ending : executor.stage = .ended → executor.pending = []

variable {plan : Plan} {executor next : Executor} {deeds : List Deed}

theorem balanced_subscribe (plan : Plan) (cell : StopCell) :
    Balanced plan (subscribe plan cell) [] where
  dispatched := rfl
  completed := rfl
  abandoned := rfl
  ticks := rfl
  flow := .refl _
  pool _ := by simp [subscribe, pending, losses]
  ending ended := by cases ended

theorem Balanced.drop (h : Balanced plan executor deeds)
    (counters : next.counters =
      { executor.counters with dropped := executor.counters.dropped + 1 })
    (ticks : next.ticks = executor.ticks + 1) (free : next.free = executor.free)
    (pending : next.pending = executor.pending) (stage : next.stage ≠ .ended) :
    Balanced plan next (deeds ++ [.dropped]) where
  dispatched := by simpa [counters, Deed.started?] using h.dispatched
  completed := by simpa [counters, Deed.completed?] using h.completed
  abandoned := by simpa [counters, Deed.lost?, Deed.given] using h.abandoned
  ticks := by
    rw [ticks, counters, h.ticks]
    rfl
  flow := by
    simpa [pending, Deed.started?, Deed.completed?, Deed.lost?, Deed.given] using h.flow
  pool going := by
    rw [free, pending]
    simpa [Deed.lost?] using h.pool (by simpa using going)
  ending ended := absurd ended stage

theorem Balanced.start (h : Balanced plan executor deeds) {slot : Slot} {rest : List Slot}
    (counters : next.counters =
      { executor.counters with dispatched := executor.counters.dispatched + 1 })
    (ticks : next.ticks = executor.ticks + 1) (free : executor.free = slot :: rest)
    (nextFree : next.free = rest) (pending : next.pending = slot :: executor.pending)
    (stage : next.stage ≠ .ended) : Balanced plan next (deeds ++ [.started slot]) where
  dispatched := by simpa [counters, Deed.started?] using h.dispatched
  completed := by simpa [counters, Deed.completed?] using h.completed
  abandoned := by simpa [counters, Deed.lost?, Deed.given] using h.abandoned
  ticks := by
    rw [ticks, counters, h.ticks]
    exact Nat.add_right_comm _ _ 1
  flow := by
    rw [List.perm_iff_count]
    intro other
    have flow := h.flow.count_eq other
    simp [pending, List.count_cons, Deed.started?, Deed.completed?, Deed.lost?, Deed.given]
      at flow ⊢
    omega
  pool going := by
    have pool := h.pool (by simpa using going)
    rw [free] at pool
    simp [nextFree, pending, Deed.lost?] at pool ⊢
    omega
  ending ended := absurd ended stage

theorem Balanced.complete (h : Balanced plan executor deeds) {slot : Slot} {outcome : Outcome}
    (counters : next.counters =
      { executor.counters with completed := executor.counters.completed + 1 })
    (ticks : next.ticks = executor.ticks)
    (free : next.free = ⟨slot.worker, slot.iteration + 1⟩ :: executor.free)
    (pending : executor.pending.Perm (slot :: next.pending))
    (ending : next.stage = .ended → next.pending = []) :
    Balanced plan next (deeds ++ [.completed slot outcome]) where
  dispatched := by simpa [counters, Deed.started?] using h.dispatched
  completed := by simpa [counters, Deed.completed?] using h.completed
  abandoned := by simpa [counters, Deed.lost?, Deed.given] using h.abandoned
  ticks := by
    rw [ticks, counters, h.ticks]
  flow := by
    rw [List.perm_iff_count]
    intro other
    have flow := h.flow.count_eq other
    have moved := pending.count_eq other
    simp [List.count_cons, Deed.started?, Deed.completed?, Deed.lost?, Deed.given]
      at flow moved ⊢
    omega
  pool going := by
    have pool := h.pool (by simpa using going)
    have length := pending.length_eq
    simp [free, Deed.lost?] at pool length ⊢
    omega
  ending := ending

theorem Balanced.lose (h : Balanced plan executor deeds) {slot : Slot}
    (counters : next.counters =
      { executor.counters with abandoned := executor.counters.abandoned + 1 })
    (ticks : next.ticks = executor.ticks) (free : next.free = executor.free)
    (pending : executor.pending.Perm (slot :: next.pending))
    (ending : next.stage = .ended → next.pending = []) :
    Balanced plan next (deeds ++ [.lost slot]) where
  dispatched := by simpa [counters, Deed.started?] using h.dispatched
  completed := by simpa [counters, Deed.completed?] using h.completed
  abandoned := by
    have abandoned := h.abandoned
    simp [counters, Deed.lost?, Deed.given]
    omega
  ticks := by
    rw [ticks, counters, h.ticks]
  flow := by
    rw [List.perm_iff_count]
    intro other
    have flow := h.flow.count_eq other
    have moved := pending.count_eq other
    simp [List.count_cons, Deed.started?, Deed.completed?, Deed.lost?, Deed.given]
      at flow moved ⊢
    omega
  pool going := by
    have pool := h.pool (by simpa using going)
    have length := pending.length_eq
    simp [free, Deed.lost?] at pool length ⊢
    omega
  ending := ending

/-- When the grace period is over, all that is in flight is abandoned at once. -/
theorem Balanced.giveUp (h : Balanced plan executor deeds) :
    Balanced plan executor.giveUp (deeds ++ [.abandoned executor.pending]) where
  dispatched := by simpa [Executor.giveUp, Deed.started?] using h.dispatched
  completed := by simpa [Executor.giveUp, Deed.completed?] using h.completed
  abandoned := by
    have abandoned := h.abandoned
    simp [Executor.giveUp, inFlight_eq_length_pending, Deed.lost?, Deed.given]
    omega
  ticks := h.ticks
  flow := by
    simpa [Executor.giveUp, pending, Deed.started?, Deed.completed?, Deed.lost?, Deed.given]
      using h.flow
  pool going := absurd (by simp) (going executor.pending)
  ending _ := rfl

theorem Balanced.turn (h : Balanced plan executor deeds) {deed : Option Deed}
    (turn : Turn executor deed next) : Balanced plan next (deeds ++ deed.toList) := by
  cases turn with
  | quiet stage seen watching ending =>
    rw [Option.toList_none, List.append_nil]
    exact ⟨h.dispatched, h.completed, h.abandoned, h.ticks, h.flow, h.pool,
      fun ended => (ending ended).elim h.ending id⟩
  | dropped dispatching full => exact h.drop rfl rfl rfl rfl (by simp [dispatching])
  | started dispatching slot rest free =>
    exact h.start rfl rfl free rfl rfl (by simp [dispatching])
  | completed before after slot outcome stage landed ending =>
    exact h.complete rfl rfl rfl (pending_perm_of_landed landed rfl rfl)
      fun ended => (pending_eq_nil_iff _).mpr (ending ended)
  | lost before after slot stage landed ending =>
    exact h.lose rfl rfl rfl (pending_perm_of_landed landed rfl rfl)
      fun ended => (pending_eq_nil_iff _).mpr (ending ended)
  | abandoned draining => exact h.giveUp

theorem Balanced.nudge (h : Balanced plan executor deeds) {worker : Nat} {stimulus : Stimulus}
    {leg : Option Leg} (nudge : Nudge executor worker stimulus leg next) :
    Balanced plan next deeds := by
  obtain ⟨-, stage, ticks, free, counters⟩ := nudge.frame
  have pending := nudge.pending_perm
  refine ⟨?_, ?_, ?_, ?_, ?_, ?_, ?_⟩
  · rw [counters]; exact h.dispatched
  · rw [counters]; exact h.completed
  · rw [counters]; exact h.abandoned
  · rw [counters, ticks]; exact h.ticks
  · have flow := h.flow
    exact flow.trans ((((pending.symm.append_left _).append_left _).append_left _))
  · rw [free, pending.length_eq]; exact h.pool
  · intro ended
    rw [stage] at ended
    rw [h.ending ended] at pending
    exact pending.eq_nil

/-- The accounts of an executor balance along every sequence of events. -/
theorem balanced_applyAll (plan : Plan) (cell : StopCell) (events : List LaneEvent) :
    Balanced plan ((subscribe plan cell).applyAll events)
      ((subscribe plan cell).deeds events) :=
  history_induction (motive := fun executor deeds _ => Balanced plan executor deeds)
    (balanced_subscribe plan cell) (fun h turn => h.turn turn) (fun h nudge => h.nudge nudge)
    events

/-- An iteration that has been joined is not in flight any more. -/
theorem Balanced.not_pending_of_completed (h : Balanced plan executor deeds)
    (numbered : Numbered plan executor deeds) {slot : Slot} (completed : slot ∈ completions deeds) :
    slot ∉ executor.pending := by
  have all := h.flow.nodup_iff.mp numbered.starts_nodup
  intro flying
  exact List.disjoint_of_nodup_append all completed
    (List.mem_append_right _ (List.mem_append_right _ flying))

/-- A tick is handled by starting an iteration or dropping an arrival, and by nothing else. -/
theorem handlesTick_step (executor : Executor) (cell : StopCell) (choice : Choice) :
    executor.handlesTick (.step cell choice) = (executor.deed? choice).any Deed.isArrival := by
  have joined (worker : Nat) :
      ((executor.landings.find? fun landing => landing.slot.worker == worker).map
        Landing.deed).any Deed.isArrival = false := by
    cases executor.landings.find? fun landing => landing.slot.worker == worker with
    | none => rfl
    | some landing =>
      obtain ⟨slot, outcome⟩ := landing
      cases outcome <;> rfl
  unfold handlesTick deed?
  cases executor.stage <;> cases choice
  case dispatching.tick => cases executor.free <;> rfl
  case dispatching.join worker => exact (joined worker).symm
  case draining.join worker => exact (joined worker).symm
  all_goals rfl

theorem Turn.ticks {deed : Option Deed} (turn : Turn executor deed next) :
    next.ticks = executor.ticks + (deed.any Deed.isArrival).toNat := by
  cases turn <;> rfl

theorem ticks_apply (executor : Executor) (event : LaneEvent) :
    (executor.apply event).ticks = executor.ticks + (executor.handlesTick event).toNat := by
  cases event with
  | step cell choice =>
    rw [handlesTick_step]
    exact (perform_turn executor cell choice).ticks
  | task worker stimulus =>
    obtain ⟨-, -, ticks, -⟩ := (nudge_stimulate executor worker stimulus).frame
    exact ticks

/-- The ticks of an executor are those that it handles. -/
theorem ticks_applyAll (executor : Executor) (events : List LaneEvent) :
    (executor.applyAll events).ticks = executor.ticks + executor.ticksHandled events := by
  induction events generalizing executor with
  | nil => rfl
  | cons event events ih =>
    rw [applyAll_cons, ih, ticks_apply, ticksHandled, Nat.add_assoc]

/-- Every iteration started is accounted for, once: after any sequence of events it has been
completed, or has been abandoned, alone or with others when the grace period was over, or is in
flight. The counters say so at every moment; until the grace period is over no slot is missing
except those of iterations that broke off, and of an executor that has ended the accounts are
final. -/
theorem iterations_accounted (plan : Plan) (cell : StopCell) (events : List LaneEvent) :
    let start := subscribe plan cell
    let executor := start.applyAll events
    let deeds := start.deeds events
    executor.counters.dispatched =
      executor.counters.completed + executor.counters.abandoned + executor.inFlight ∧
    ((∀ slots, .abandoned slots ∉ deeds) →
      executor.free.length + executor.inFlight + (losses deeds).length = plan.workers) ∧
    executor.counters.dispatched + executor.counters.dropped = start.ticksHandled events ∧
    (executor.stage = .ended →
      (Run.statsOf executor).dispatched =
        (Run.statsOf executor).completed + (Run.statsOf executor).abandoned) ∧
    (starts deeds).Nodup ∧
    (starts deeds).Perm
      (completions deeds ++ (losses deeds ++ (abandonments deeds ++ executor.pending))) ∧
    executor.counters.dispatched = (starts deeds).length ∧
    executor.counters.completed = (completions deeds).length ∧
    executor.counters.abandoned = (losses deeds).length + (abandonments deeds).length := by
  intro start executor deeds
  have balanced : Balanced plan executor deeds := balanced_applyAll plan cell events
  have numbered : Numbered plan executor deeds := numbered_applyAll plan cell events
  have flow := balanced.flow.length_eq
  simp only [List.length_append] at flow
  rw [inFlight_eq_length_pending]
  have counted : executor.counters.dispatched =
      executor.counters.completed + executor.counters.abandoned + executor.pending.length := by
    rw [balanced.dispatched, balanced.completed, balanced.abandoned]
    omega
  refine ⟨counted, balanced.pool, ?_, ?_, numbered.starts_nodup, balanced.flow,
    balanced.dispatched, balanced.completed, balanced.abandoned⟩
  · rw [← balanced.ticks]
    exact (ticks_applyAll start events).trans (Nat.zero_add _)
  · intro ended
    rw [balanced.ending ended] at counted
    exact counted

end Executor

end Cadence
