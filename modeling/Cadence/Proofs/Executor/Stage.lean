import Cadence.Proofs.Executor.Turn

/-!
# The last stages of executors

An executor dispatches until its time is over or until it sees that the run is to stop. It leaves
off once and does not come back. When it has ended, as it has when it has abandoned what was in
flight, it does nothing any more, and neither does one that has failed.
-/

namespace Cadence

/-- Why an executor leaves off dispatching. -/
inductive Leave where
  /-- Its time is over. -/
  | elapsed
  /-- It has seen that the run is to stop. -/
  | stopped
  deriving Repr, DecidableEq

namespace Executor

/-- Whether an executor has left off dispatching. -/
def hasLeft (executor : Executor) : Bool :=
  match executor.stage with
  | .draining | .ended => true
  | .idle | .dispatching | .failed => false

/-- Why an executor leaves off with an event, if it does. -/
def leave? (executor : Executor) : LaneEvent → Option Leave
  | .step cell choice =>
    match executor.stage, choice with
    | .idle, .enter => if cell.isStopped then some .stopped else none
    | .dispatching, .deadline => some .elapsed
    | .dispatching, .look =>
      if cell.version ≠ executor.seen ∧ cell.isStopped then some .stopped else none
    | _, _ => none
  | .task _ _ => none

@[simp] theorem hasLeft_settleStage (executor : Executor) :
    executor.settleStage.hasLeft = executor.hasLeft := by
  rcases settleStage_cases executor with same | ⟨draining, -, ended⟩
  · rw [same]
  · rw [ended]
    simp [hasLeft, draining]

@[simp] theorem hasLeft_leave (executor : Executor) : executor.leave.hasLeft = true := by
  rw [leave, hasLeft_settleStage]
  rfl

theorem hasLeft_join (executor : Executor) (worker : Nat) :
    (executor.join worker).1.hasLeft = executor.hasLeft := by
  unfold join
  split
  · rfl
  · dsimp only
    split <;> exact hasLeft_settleStage _

theorem hasLeft_arrive (executor : Executor) : executor.arrive.1.hasLeft = executor.hasLeft := by
  unfold arrive
  split <;> rfl

theorem hasLeft_look (executor : Executor) (cell : StopCell) :
    (executor.look cell).hasLeft =
      (executor.hasLeft || decide (cell.version ≠ executor.seen) && cell.isStopped) := by
  unfold look
  split
  next same => simp [hasLeft, same]
  next changed =>
    dsimp only
    split
    next stopped => simp [changed, stopped]
    next going => simp [hasLeft, going]

theorem hasLeft_perform (executor : Executor) (cell : StopCell) (choice : Choice) :
    (executor.perform cell choice).1.hasLeft =
      (executor.hasLeft || (executor.leave? (.step cell choice)).isSome) := by
  unfold perform
  split
  case h_1 idle =>
    cases stopped : cell.isStopped
    · simp [hasLeft, leave?, idle, stopped]
    · simp [leave?, idle, stopped]
  case h_2 idle => simp [hasLeft, leave?, idle]
  case h_3 dispatching => simp [leave?, dispatching]
  case h_4 dispatching =>
    rw [hasLeft_look]
    simp only [leave?, dispatching]
    split <;> simp_all
  case h_5 worker dispatching => simp [hasLeft_join, leave?, dispatching]
  case h_6 worker draining => simp [hasLeft_join, leave?, draining]
  case h_7 dispatching => simp [hasLeft_arrive, leave?, dispatching]
  case h_8 draining => simp [hasLeft, leave?, giveUp, draining]
  case h_9 choice _ _ _ _ _ _ _ _ _ _ =>
    have stays : executor.leave? (.step cell choice) = none := by
      unfold leave?
      split <;> simp_all
    simp [stays]

/-- Those are all the ways in which an executor leaves off, and it does not come back. -/
theorem hasLeft_apply (executor : Executor) (event : LaneEvent) :
    (executor.apply event).hasLeft = (executor.hasLeft || (executor.leave? event).isSome) := by
  cases event with
  | step cell choice => exact hasLeft_perform executor cell choice
  | task worker stimulus =>
    obtain ⟨-, stage, -⟩ := (nudge_stimulate executor worker stimulus).frame
    simp [apply, hasLeft, leave?, stage]

theorem leave?_of_hasLeft {executor : Executor} (left : executor.hasLeft = true)
    (event : LaneEvent) : executor.leave? event = none := by
  cases event with
  | step cell choice =>
    unfold hasLeft at left
    unfold leave?
    cases stage : executor.stage <;> simp_all
  | task worker stimulus => rfl

theorem leaves_of_hasLeft {executor : Executor} (left : executor.hasLeft = true)
    (events : List LaneEvent) : executor.history leave? events = [] :=
  history_eq_nil (hasLeft · = true) (fun executor event left =>
    ⟨leave?_of_hasLeft left event, by rw [hasLeft_apply, left, Bool.true_or]⟩) left events

/-- What sees a stop has looked at a cell that holds a reason. -/
theorem isStopped_of_leave? {executor : Executor} {cell : StopCell} {choice : Choice}
    (left : executor.leave? (.step cell choice) = some .stopped) : cell.isStopped = true := by
  simp only [leave?] at left
  split at left
  case h_1 => simpa using left
  case h_2 => cases left
  case h_3 =>
    obtain ⟨-, stopped⟩ : ¬cell.version = executor.seen ∧ cell.isStopped = true := by
      simpa using left
    exact stopped
  case h_4 => cases left

/-- An executor leaves off once at most; whether it has is seen from its stage. -/
theorem leaves_cases (plan : Plan) (cell : StopCell) (events : List LaneEvent) :
    let leaves := (subscribe plan cell).history leave? events
    let executor := (subscribe plan cell).applyAll events
    leaves = [] ∧ executor.hasLeft = false ∨
      ∃ leave, leaves = [leave] ∧ executor.hasLeft = true := by
  induction events using List.reverseRecOn with
  | nil => exact Or.inl ⟨rfl, rfl⟩
  | append_singleton events event ih =>
    dsimp only
    rw [history_concat, applyAll_concat, hasLeft_apply]
    rcases ih with ⟨none, going⟩ | ⟨leave, one, left⟩
    · rw [none, going]
      cases ((subscribe plan cell).applyAll events).leave? event with
      | none => exact Or.inl ⟨rfl, rfl⟩
      | some leave => exact Or.inr ⟨leave, rfl, rfl⟩
    · rw [one, left, leave?_of_hasLeft left]
      exact Or.inr ⟨leave, rfl, rfl⟩

section Done

variable {executor : Executor}

/-- Nothing more is to come of an executor that has ended or has failed. -/
def IsDone (executor : Executor) : Prop := executor.stage = .ended ∨ executor.stage = .failed

/-- An executor that is done does nothing. -/
theorem IsDone.perform (done : executor.IsDone) (cell : StopCell) (choice : Choice) :
    executor.deed? choice = none ∧ (executor.perform cell choice).1 = executor := by
  rcases done with ended | failed
  · simp [deed?, Executor.perform, ended]
  · simp [deed?, Executor.perform, failed]

theorem IsDone.apply (done : executor.IsDone) (event : LaneEvent) :
    executor.eventDeed? event = none ∧ (executor.apply event).stage = executor.stage := by
  cases event with
  | step cell choice =>
    obtain ⟨none, same⟩ := done.perform cell choice
    exact ⟨none, by rw [Executor.apply, same]⟩
  | task worker stimulus => exact ⟨rfl, (nudge_stimulate executor worker stimulus).frame.2.1⟩

theorem IsDone.isDone_apply (done : executor.IsDone) (event : LaneEvent) :
    (executor.apply event).IsDone := by
  rwa [IsDone, (done.apply event).2]

theorem IsDone.deeds (done : executor.IsDone) (events : List LaneEvent) :
    executor.deeds events = [] :=
  history_eq_nil IsDone (fun _ event done =>
    ⟨(done.apply event).1, done.isDone_apply event⟩) done events

theorem stage_apply_of_ended (ended : executor.stage = .ended) (event : LaneEvent) :
    (executor.apply event).stage = .ended :=
  (IsDone.apply (Or.inl ended) event).2.trans ended

theorem deeds_of_ended (ended : executor.stage = .ended) (events : List LaneEvent) :
    executor.deeds events = [] :=
  IsDone.deeds (Or.inl ended) events

theorem Turn.ended_of_abandoned {next : Executor} {slots : List Slot}
    (turn : Turn executor (some (.abandoned slots)) next) : next.stage = .ended := by
  cases turn
  rfl

/-- An executor abandons what is in flight once, and has ended then. -/
theorem ended_of_abandoned {plan : Plan} {cell : StopCell} {events : List LaneEvent}
    {slots : List Slot} (done : .abandoned slots ∈ (subscribe plan cell).deeds events) :
    ((subscribe plan cell).applyAll events).stage = .ended := by
  induction events using List.reverseRecOn with
  | nil => cases done
  | append_singleton events event ih =>
    rw [applyAll_concat]
    rw [deeds_concat, List.mem_append] at done
    rcases done with done | done
    · exact stage_apply_of_ended (ih done) event
    · cases event with
      | step now choice =>
        have turn := perform_turn ((subscribe plan cell).applyAll events) now choice
        have abandoned : ((subscribe plan cell).applyAll events).deed? choice =
            some (.abandoned slots) := Option.mem_toList.mp done
        rw [abandoned] at turn
        exact turn.ended_of_abandoned
      | task worker stimulus => cases done

theorem not_abandoned_of_ne_ended {plan : Plan} {cell : StopCell} {events : List LaneEvent}
    (going : ((subscribe plan cell).applyAll events).stage ≠ .ended) (slots : List Slot) :
    .abandoned slots ∉ (subscribe plan cell).deeds events :=
  fun done => going (ended_of_abandoned done)

end Done

end Executor

end Cadence
