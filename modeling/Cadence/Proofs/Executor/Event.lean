import Cadence.Executor

/-!
# Histories of executors

An executor is driven by events of two kinds: its own steps, each with the stop cell as it is then,
and what lets its iterations go on. `Executor.applyAll` takes any sequence of them.

Two histories are kept beside a sequence of events. The deeds say what the steps did to the
iterations as a whole: which were started, joined or abandoned. The legs say how the iterations
themselves went on, and with which requests. `perform_turn` tells all that a step can do, deed by
deed; the invariants of executors are derived from it.
-/

namespace Cadence

/-- What drives an executor. -/
inductive LaneEvent where
  /-- A step of its own; the stop cell is as it is then. -/
  | step (cell : StopCell) (choice : Choice)
  /-- The iteration of a worker goes on. -/
  | task (worker : Nat) (stimulus : Stimulus)
  deriving Repr

/-- What a step does to the iterations of an executor. -/
inductive Deed where
  | started (slot : Slot)
  /-- An arrival finds no free slot. -/
  | dropped
  /-- An iteration that has ended with an outcome is joined. -/
  | completed (slot : Slot) (outcome : Outcome)
  /-- An iteration that broke off is joined. -/
  | lost (slot : Slot)
  /-- The grace period is over for all that is in flight. -/
  | abandoned (slots : List Slot)
  deriving Repr, DecidableEq

/-- How an iteration goes on: what lets it, and the request it makes then. -/
structure Leg where
  slot : Slot
  stimulus : Stimulus
  request : Option Request
  deriving Repr

namespace Landing

/-- What the join of an ended iteration is. -/
def deed (landing : Landing) : Deed :=
  match landing.outcome with
  | some outcome => .completed landing.slot outcome
  | none => .lost landing.slot

end Landing

namespace Deed

/-- What is to be written into the ledger for an executor of a scenario. -/
def record? (scenario : String) : Deed → Option Record
  | .dropped => some (.dropped scenario)
  | .completed _ outcome => some (.iteration scenario outcome)
  | .started _ | .lost _ | .abandoned _ => none

end Deed

namespace Phase

/-- The request made when an iteration goes on. -/
def Progress.request? : Progress → Option Request
  | .goesOn phase => phase.request?
  | .ends _ => none

end Phase

namespace Executor

/-- The slots of the iterations that were started and are neither joined nor abandoned. -/
def pending (executor : Executor) : List Slot :=
  executor.flights.map (·.slot) ++ executor.landings.map (·.slot)

/-- What a step does to the iterations, if it does anything to them. -/
def deed? (executor : Executor) (choice : Choice) : Option Deed :=
  match executor.stage, choice with
  | .dispatching, .tick =>
    match executor.free with
    | [] => some .dropped
    | slot :: _ => some (.started slot)
  | .dispatching, .join worker | .draining, .join worker =>
    (executor.landings.find? fun landing => landing.slot.worker == worker).map Landing.deed
  | .draining, .graceOver => some (.abandoned executor.pending)
  | _, _ => none

/-- How the iteration of a worker goes on; nothing if it does not wait for that. -/
def leg? (executor : Executor) (worker : Nat) (stimulus : Stimulus) : Option Leg := do
  let flight ← executor.flightOf? worker
  let progress ← flight.phase.step? executor.plan.scenario (executor.context flight) stimulus
  return ⟨flight.slot, stimulus, progress.request?⟩

/-- Does what one event asks for. -/
def apply (executor : Executor) : LaneEvent → Executor
  | .step cell choice => (executor.perform cell choice).1
  | .task worker stimulus => (executor.stimulate worker stimulus).1

/-- The executor after a sequence of events. -/
def applyAll (executor : Executor) (events : List LaneEvent) : Executor :=
  events.foldl apply executor

/-- The deed of an event. -/
def eventDeed? (executor : Executor) : LaneEvent → Option Deed
  | .step _ choice => executor.deed? choice
  | .task _ _ => none

/-- The leg of an event. -/
def eventLeg? (executor : Executor) : LaneEvent → Option Leg
  | .step _ _ => none
  | .task worker stimulus => executor.leg? worker stimulus

/-- What is noted along a sequence of events, the earliest first. -/
def history {α : Type} (note : Executor → LaneEvent → Option α) (executor : Executor) :
    List LaneEvent → List α
  | [] => []
  | event :: events => (note executor event).toList ++ (executor.apply event).history note events

/-- The deeds done along a sequence of events. -/
def deeds (executor : Executor) (events : List LaneEvent) : List Deed :=
  executor.history eventDeed? events

/-- The legs flown along a sequence of events. -/
def legs (executor : Executor) (events : List LaneEvent) : List Leg :=
  executor.history eventLeg? events

@[simp] theorem applyAll_nil (executor : Executor) : executor.applyAll [] = executor := rfl

theorem applyAll_cons (executor : Executor) (event : LaneEvent) (events : List LaneEvent) :
    executor.applyAll (event :: events) = (executor.apply event).applyAll events := rfl

theorem applyAll_append (executor : Executor) (first second : List LaneEvent) :
    executor.applyAll (first ++ second) = (executor.applyAll first).applyAll second :=
  List.foldl_append

/-- The last event of a sequence meets the executor that the others have left. -/
theorem applyAll_concat (executor : Executor) (events : List LaneEvent) (event : LaneEvent) :
    executor.applyAll (events ++ [event]) = (executor.applyAll events).apply event :=
  applyAll_append executor events [event]

theorem history_append {α : Type} (note : Executor → LaneEvent → Option α) (executor : Executor)
    (first second : List LaneEvent) :
    executor.history note (first ++ second) =
      executor.history note first ++ (executor.applyAll first).history note second := by
  induction first generalizing executor with
  | nil => rfl
  | cons event first ih => simp [history, ih, applyAll_cons, List.append_assoc]

theorem history_concat {α : Type} (note : Executor → LaneEvent → Option α) (executor : Executor)
    (events : List LaneEvent) (event : LaneEvent) :
    executor.history note (events ++ [event]) =
      executor.history note events ++ (note (executor.applyAll events) event).toList := by
  rw [history_append]
  simp [history]

/-- Nothing is noted of an executor in a state that it keeps and of which nothing is noted. -/
theorem history_eq_nil {α : Type} {note : Executor → LaneEvent → Option α}
    (state : Executor → Prop) (quiet : ∀ executor event, state executor →
      note executor event = none ∧ state (executor.apply event))
    {executor : Executor} (h : state executor) (events : List LaneEvent) :
    executor.history note events = [] := by
  induction events generalizing executor with
  | nil => rfl
  | cons event events ih =>
    obtain ⟨nothing, stays⟩ := quiet executor event h
    rw [history, nothing, ih stays]
    rfl

theorem deeds_concat (executor : Executor) (events : List LaneEvent) (event : LaneEvent) :
    executor.deeds (events ++ [event]) =
      executor.deeds events ++ ((executor.applyAll events).eventDeed? event).toList :=
  history_concat eventDeed? executor events event

theorem legs_concat (executor : Executor) (events : List LaneEvent) (event : LaneEvent) :
    executor.legs (events ++ [event]) =
      executor.legs events ++ ((executor.applyAll events).eventLeg? event).toList :=
  history_concat eventLeg? executor events event

end Executor

end Cadence
