import Cadence.Ledger
import Cadence.Scenario
import Cadence.StopCell

/-!
# Executors

An executor drives one scenario from a pool of worker slots. A tick of its pacing clock takes a free
slot and starts an iteration on it, or counts a dropped arrival; the clock never waits. A slot stays
taken until its iteration has ended, has settled and has been joined; it is lost if the iteration
breaks off. When dispatching ends, iterations in flight may go on until the grace period is over and
are abandoned then.

The executor is a state machine. `Executor.perform` does one of its steps, `Executor.stimulate` lets
one of its iterations go on, and `Executor.choose` says which step comes first of those that are
possible; any order of steps and stimuli is a run of the machine.

Section 4.4 of the specification, and section 10.7 for the counters.
-/

namespace Cadence

/-- How one scenario is driven. -/
structure Plan where
  scenario : Scenario
  /-- Arrivals per second. -/
  rate : Float
  /-- The time between two arrivals. -/
  period : Duration
  workers : Nat
  /-- Workers are numbered from here. -/
  firstWorker : Nat

/-- A worker and the number of its next iteration. -/
structure Slot where
  worker : Nat
  iteration : Nat
  deriving Repr, DecidableEq

/-- How far an iteration has come. -/
inductive Phase where
  /-- It has not taken its first step. -/
  | fresh
  /-- It waits for the reply to a request or for a time to pass. -/
  | running (body : Body)
  /-- It has ended and its worker idles. -/
  | settling (outcome : Outcome)

/-- An iteration that has been started. -/
structure Flight where
  slot : Slot
  serial : Nat
  phase : Phase

/-- An iteration that has ended and has not been joined; without an outcome it broke off. -/
structure Landing where
  slot : Slot
  outcome : Option Outcome
  deriving Repr

/-- What lets an iteration go on. -/
inductive Stimulus where
  /-- Its first step, at a moment of the wall clock. -/
  | begin (millis : Int)
  | answer (reply : Reply)
  /-- The time it waited for has passed. -/
  | wake
  /-- It breaks off where it is, as when the gateway's client fails beyond repair. -/
  | breakOff
  deriving Repr

/-- The counters of an executor. -/
structure Counters where
  dispatched : Nat := 0
  completed : Nat := 0
  dropped : Nat := 0
  abandoned : Nat := 0
  deriving Repr, DecidableEq

inductive Stage where
  /-- It has not looked at the stop cell yet. -/
  | idle
  | dispatching
  /-- No more arrivals; iterations in flight may end. -/
  | draining
  | ended
  /-- Its clock could not be set up. -/
  | failed
  deriving Repr, DecidableEq

structure Executor where
  plan : Plan
  stage : Stage
  /-- Ticks handled so far. -/
  ticks : Nat
  /-- The free slots; the first goes out next. -/
  free : List Slot
  /-- Iterations that have not ended. -/
  flights : List Flight
  /-- Iterations that have ended and wait to be joined, the earliest first. -/
  landings : List Landing
  /-- Iterations that were abandoned and go on unobserved. -/
  detached : List Flight
  counters : Counters
  /-- The version of the stop cell that was last seen. -/
  seen : Nat
  /-- Whether changes of the stop cell are still waited for. -/
  watching : Bool

/-- A step of an executor. -/
inductive Choice where
  /-- Its first look at the stop cell. -/
  | enter
  /-- It cannot set up its clock. -/
  | fail
  | deadline
  /-- The stop cell has changed. -/
  | look
  /-- Joins the ended iteration of a worker. -/
  | join (worker : Nat)
  | tick
  | graceOver
  deriving Repr, DecidableEq

/-- What the clock says to an executor: whether it can be set up, and which timers are due. -/
structure Due where
  clock : Bool
  deadline : Bool
  tick : Bool
  grace : Bool
  deriving Repr, DecidableEq

namespace Phase

/-- What a stimulus leads to: a further phase, or the end of the iteration. -/
inductive Progress where
  | goesOn (phase : Phase)
  | ends (outcome : Option Outcome)

/-- An iteration that has ended with an outcome settles first, if its scenario does. -/
def Progress.ofBody (settle : Duration) : Body → Progress
  | .done outcome =>
    if settle.isZero then .ends (some outcome) else .goesOn (.settling outcome)
  | .broken => .ends none
  | body => .goesOn (.running body)

/-- How an iteration goes on; nothing if the stimulus is not what it waits for. -/
def step? (scenario : Scenario) (context : IterationContext) : Phase → Stimulus → Option Progress
  | .fresh, .begin millis => some (.ofBody scenario.settle (scenario.body context millis))
  | .running (.ask _ next), .answer reply => some (.ofBody scenario.settle (next reply))
  | .running (.pause _ next), .wake => some (.ofBody scenario.settle next)
  | .settling outcome, .wake => some (.ends (some outcome))
  | .fresh, .breakOff | .running _, .breakOff => some (.ends none)
  | _, _ => none

/-- The request that an iteration waits for. -/
def request? : Phase → Option Request
  | .running (.ask request _) => some request
  | _ => none

/-- The time that an iteration waits for. -/
def pause? (settle : Duration) : Phase → Option Duration
  | .running (.pause time _) => some time
  | .settling _ => some settle
  | _ => none

end Phase

namespace Executor

/-- An executor that has subscribed to a stop cell. The lowest worker goes out first. -/
def subscribe (plan : Plan) (cell : StopCell) : Executor where
  plan := plan
  stage := .idle
  ticks := 0
  free := (List.range plan.workers).map fun offset => ⟨plan.firstWorker + offset, 0⟩
  flights := []
  landings := []
  detached := []
  counters := {}
  seen := cell.version
  watching := true

/-- The number of iterations started and not joined. -/
def inFlight (executor : Executor) : Nat :=
  executor.flights.length + executor.landings.length

/-- The context of an iteration. -/
def context (executor : Executor) (flight : Flight) : IterationContext where
  scenario := executor.plan.scenario.name
  worker := flight.slot.worker
  iteration := flight.slot.iteration
  serial := flight.serial

/-- Starts an iteration on the first free slot, or drops the arrival (4.4). -/
def arrive (executor : Executor) : Executor × Option Record :=
  match executor.free with
  | [] =>
    ({ executor with
        ticks := executor.ticks + 1
        counters := { executor.counters with dropped := executor.counters.dropped + 1 } },
      some (.dropped executor.plan.scenario.name))
  | slot :: free =>
    ({ executor with
        ticks := executor.ticks + 1
        free := free
        flights := ⟨slot, executor.counters.dispatched, .fresh⟩ :: executor.flights
        counters := { executor.counters with dispatched := executor.counters.dispatched + 1 } },
      none)

/-- Ends the executor if it only waits for iterations in flight and there are none. -/
def settleStage (executor : Executor) : Executor :=
  if executor.stage = .draining ∧ executor.inFlight = 0 then { executor with stage := .ended }
  else executor

/-- Stops dispatching. -/
def leave (executor : Executor) : Executor :=
  settleStage { executor with stage := .draining }

/-- Takes an ended iteration. With an outcome its slot is free again, the last one given back going
out first; without one the slot is lost. -/
def join (executor : Executor) (worker : Nat) : Executor × Option Record :=
  match executor.landings.find? fun landing => landing.slot.worker == worker with
  | none => (executor, none)
  | some landing =>
    let executor := { executor with
      landings := executor.landings.eraseP fun landing => landing.slot.worker == worker }
    match landing.outcome with
    | some outcome =>
      (settleStage { executor with
          free := ⟨worker, landing.slot.iteration + 1⟩ :: executor.free
          counters := { executor.counters with completed := executor.counters.completed + 1 } },
        some (.iteration executor.plan.scenario.name outcome))
    | none =>
      (settleStage { executor with
          counters := { executor.counters with abandoned := executor.counters.abandoned + 1 } },
        none)

/-- Abandons what is in flight (4.4, Termination). -/
def giveUp (executor : Executor) : Executor :=
  { executor with
    stage := .ended
    flights := []
    landings := []
    detached := executor.flights
    counters := { executor.counters with
      abandoned := executor.counters.abandoned + executor.inFlight } }

/-- Looks at a stop cell that has changed or has been closed. -/
def look (executor : Executor) (cell : StopCell) : Executor :=
  if cell.version = executor.seen then { executor with watching := false }
  else
    let executor := { executor with seen := cell.version }
    if cell.isStopped then executor.leave else executor

/-- Does a step, and says what is to be written into the ledger. A step that does not belong to the
stage of the executor does nothing. -/
def perform (executor : Executor) (cell : StopCell) (choice : Choice) : Executor × Option Record :=
  match executor.stage, choice with
  | .idle, .enter =>
    (if cell.isStopped then executor.leave else { executor with stage := .dispatching }, none)
  | .idle, .fail => ({ executor with stage := .failed }, none)
  | .dispatching, .deadline => (executor.leave, none)
  | .dispatching, .look => (executor.look cell, none)
  | .dispatching, .join worker | .draining, .join worker => executor.join worker
  | .dispatching, .tick => executor.arrive
  | .draining, .graceOver => (executor.giveUp, none)
  | _, _ => (executor, none)

/-- The step that comes first of those that are possible. While dispatching, the deadline goes
before a change of the stop cell, that before an ended iteration, and that before a tick. -/
def choose (executor : Executor) (cell : StopCell) (due : Due) : Option Choice :=
  match executor.stage with
  | .idle => some (if due.clock then .enter else .fail)
  | .dispatching =>
    if due.deadline then some .deadline
    else if executor.watching && (cell.version != executor.seen || cell.closed) then some .look
    else match executor.landings with
      | landing :: _ => some (.join landing.slot.worker)
      | [] => if due.tick then some .tick else none
  | .draining =>
    match executor.landings with
    | landing :: _ => some (.join landing.slot.worker)
    | [] => if due.grace then some .graceOver else none
  | .ended | .failed => none

/-- The iteration of a worker that has not ended, observed or not. -/
def flightOf? (executor : Executor) (worker : Nat) : Option Flight :=
  (executor.flights ++ executor.detached).find? fun flight => flight.slot.worker == worker

/-- Puts the iteration of a worker into a phase. -/
def setPhase (worker : Nat) (phase : Phase) (flights : List Flight) : List Flight :=
  flights.map fun flight => if flight.slot.worker = worker then { flight with phase } else flight

/-- Lets the iteration of a worker go on, and says which request it makes. Iterations that are no
longer observed go on as well, but their end is not seen. -/
def stimulate (executor : Executor) (worker : Nat) (stimulus : Stimulus) :
    Executor × Option Request :=
  match executor.flightOf? worker with
  | none => (executor, none)
  | some flight =>
    match flight.phase.step? executor.plan.scenario (executor.context flight) stimulus with
    | none => (executor, none)
    | some (.goesOn phase) =>
      ({ executor with
          flights := setPhase worker phase executor.flights
          detached := setPhase worker phase executor.detached }, phase.request?)
    | some (.ends outcome) =>
      let rest := fun (flights : List Flight) =>
        flights.eraseP fun flight => flight.slot.worker == worker
      let observed := executor.flights.any fun flight => flight.slot.worker == worker
      ({ executor with
          flights := rest executor.flights
          detached := rest executor.detached
          landings := if observed then executor.landings ++ [⟨flight.slot, outcome⟩]
            else executor.landings }, none)

end Executor

end Cadence
