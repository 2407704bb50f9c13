import Cadence.Course.Agenda
import Cadence.Course.Notice
import Cadence.Run.Plan

/-!
# The course of a run

A run in time: what is due when, which requests wait for a reply, and what the operator is to know.
The course does nothing to the run but apply events to it; what it adds is when they happen. It
leaves open who answers the requests and whether time really passes.

Times are milliseconds since the start of the run. Timers fire at whole milliseconds, never early.

Sections 4.4 and 5 of the specification.
-/

namespace Cadence

/-- What bounds a run in time. -/
structure Terms where
  duration : Duration
  gracePeriod : Duration
  /-- What the monotonic clock shows at the start, in nanoseconds. -/
  instant : Nat
  deriving Repr

/-- When an executor stopped dispatching, and when it had ended. -/
structure LaneTimes where
  left : Nat := 0
  ended : Nat := 0
  deriving Repr

/-- A change of the stop cell from outside. -/
inductive StopChange where
  /-- Asks for a stop; the first reason wins. -/
  | ask (reason : String)
  /-- Puts a value into the cell, whatever it held. -/
  | put (reason : Option String)
  | close
  deriving Repr

/-- What an agenda holds. -/
inductive Happening where
  | task (lane worker : Nat) (stimulus : Stimulus)
  | stop (change : StopChange)
  | progress (round : Nat) (every : Duration)
  | abortCheck (round : Nat) (every : Duration)
  deriving Repr

/-- A request that the iteration of a worker waits for. -/
structure Errand where
  lane : Nat
  worker : Nat
  request : Request
  deriving Repr

/-- An iteration that was started. -/
structure Start where
  millis : Nat
  slot : Slot
  deriving Repr

structure Course where
  terms : Terms
  run : Run
  now : Nat
  /-- What the wall clock shows at the start, in milliseconds. -/
  epoch : Int
  agenda : Agenda Happening
  /-- The requests that nobody has taken on yet. -/
  errands : List Errand
  lanes : List LaneTimes
  /-- The latest comes first, here and below. -/
  calls : List Call
  starts : List Start
  notices : List (Nat × Notice)

namespace StopChange

/-- A cell after a change; a closed cell does not change any more. -/
def apply (change : StopChange) (cell : StopCell) : StopCell :=
  if cell.closed then cell
  else match change with
    | .ask reason => cell.stop reason
    | .put reason => cell.replace reason
    | .close => cell.close

end StopChange

namespace LaneTimes

/-- The times of an executor after a step that took it from one stage to another. -/
def mark (times : LaneTimes) (now : Nat) (before after : Stage) : LaneTimes :=
  let running (stage : Stage) : Bool := stage == .idle || stage == .dispatching
  { left := if running before && !running after then now else times.left
    ended := if before != .ended && after == .ended then now else times.ended }

end LaneTimes

namespace Course

/-- How long a wait lasts that would end after all instants: thirty years, in nanoseconds. -/
def longestWait : Nat := 30 * 365 * 86400 * 1000000000

/-- When a wait ends that begins at a time. -/
def wake (terms : Terms) (now : Nat) (wait : Duration) : Nat :=
  let start := now * 1000000
  if representable (terms.instant + start) wait then Duration.timerTick (start + wait.nanos)
  else Duration.timerTick (start + longestWait)

/-- When something is due that happens at regular intervals from the start. -/
def roundDue (round : Nat) (every : Duration) : Nat := Duration.timerTick (round * every.nanos)

/-- When the deadline is. -/
def deadline (course : Course) : Nat := Duration.timerTick course.terms.duration.nanos

/-- When the grace period of an executor is over. -/
def graceEnd (course : Course) (lane : Nat) : Nat :=
  wake course.terms ((course.lanes[lane]?.getD {}).left) course.terms.gracePeriod

/-- When the next tick of an executor is due. -/
def tickDue (executor : Executor) : Nat := roundDue executor.ticks executor.plan.period

/-- Which timers of an executor have fired. -/
def due (course : Course) (lane : Nat) (executor : Executor) : Due where
  clock := executor.plan.paceable course.terms.instant course.terms.duration
  deadline := course.deadline ≤ course.now
  tick := tickDue executor ≤ course.now
  grace := course.graceEnd lane ≤ course.now

/-- When the next timer of an executor fires. -/
def nextTimer? (course : Course) (lane : Nat) (executor : Executor) : Option Nat :=
  match executor.stage with
  | .dispatching => some (min course.deadline (tickDue executor))
  | .draining => some (course.graceEnd lane)
  | .idle | .ended | .failed => none

def announce (course : Course) (notices : List Notice) : Course :=
  { course with notices := notices.reverse.map (course.now, ·) ++ course.notices }

def schedule (course : Course) (due : Nat) (happening : Happening) : Course :=
  { course with agenda := course.agenda.enter due happening }

/-- What a step of an executor lets the operator know. -/
def noticesOf (choice : Choice) (before after : Executor) : List Notice :=
  let scenario := after.plan.scenario.name
  match choice with
  | .tick =>
    if before.counters.dropped = 0 ∧ after.counters.dropped = 1 then
      [.overload scenario after.plan.workers]
    else []
  | .join _ =>
    if before.counters.abandoned < after.counters.abandoned then [.brokenIteration scenario] else []
  | .graceOver =>
    [.graceOver scenario (after.counters.abandoned - before.counters.abandoned)]
  | _ => []

/-- Lets an iteration that a step has started begin at once. -/
def launch (course : Course) (lane : Nat) (before after : Executor) : Course :=
  if after.counters.dispatched ≤ before.counters.dispatched then course
  else match after.flights with
    | [] => course
    | flight :: _ =>
      { course.schedule course.now
          (.task lane flight.slot.worker (.begin (course.epoch + course.now))) with
        starts := ⟨course.now, flight.slot⟩ :: course.starts }

/-- Does a step of an executor. -/
def perform (course : Course) (lane : Nat) (choice : Choice) : Course :=
  let run := course.run.apply (.step lane choice)
  match course.run.executors[lane]?, run.executors[lane]? with
  | some before, some after =>
    let course := { course with
      run := run
      lanes := course.lanes.modify lane (LaneTimes.mark · course.now before.stage after.stage) }
    (course.announce (noticesOf choice before after)).launch lane before after
  | _, _ => course

/-- Enters what an iteration waits for: the reply to its request, or the end of its pause. -/
def await (course : Course) (lane : Nat) (executor : Executor) (flight : Flight) : Course :=
  match flight.phase.request?, flight.phase.pause? executor.plan.scenario.settle with
  | some request, _ =>
    { course with
      errands := course.errands ++ [⟨lane, flight.slot.worker, request⟩]
      calls := ⟨course.now, request⟩ :: course.calls }
  | none, some wait =>
    course.schedule (wake course.terms course.now wait) (.task lane flight.slot.worker .wake)
  | none, none => course

/-- Takes on the first errand. -/
def takeErrand? (course : Course) : Option (Errand × Course) :=
  match course.errands with
  | [] => none
  | errand :: rest => some (errand, { course with errands := rest })

/-- Enters the reply to a request, which arrives at a time. -/
def answer (course : Course) (errand : Errand) (time : Nat) (reply : Reply) : Course :=
  course.schedule time (.task errand.lane errand.worker (.answer reply))

/-- Lets an iteration go on. -/
def stimulate (course : Course) (lane worker : Nat) (stimulus : Stimulus) : Course :=
  let course := { course with run := course.run.apply (.task lane worker stimulus) }
  match course.run.executors[lane]? with
  | none => course
  | some executor =>
    match executor.flightOf? worker with
    | none => course
    | some flight => course.await lane executor flight

/-- The progress of every executor. -/
def progressNotices (run : Run) : List Notice :=
  let summaries := run.ledger.progress
  run.executors.map fun executor =>
    let name := executor.plan.scenario.name
    let (passed, total) := match summaries.find? fun summary => summary.scenario == name with
      | some summary => (summary.checksPassed, summary.checksTotal)
      | none => (0, 0)
    .progress name executor.counters.dispatched executor.counters.completed
      executor.counters.dropped passed total

/-- The notice of a fail-fast threshold for which the watcher is about to ask for a stop. -/
def crossedNotices (run : Run) : List Notice :=
  if run.listening then
    match run.crossed? with
    | none => []
    | some (threshold, observed) => [.crossed threshold.text observed]
  else []

/-- Does what the agenda says. -/
def happen (course : Course) : Happening → Course
  | .task lane worker stimulus => course.stimulate lane worker stimulus
  | .stop change =>
    { course with run := { course.run with stop := change.apply course.run.stop } }
  | .progress round every =>
    let course := course.announce (progressNotices course.run)
    { course with run := course.run.apply .progress }.schedule (roundDue (round + 1) every)
      (.progress (round + 1) every)
  | .abortCheck round every =>
    let course := course.announce (crossedNotices course.run)
    { course with run := course.run.apply .abortCheck }.schedule (roundDue (round + 1) every)
      (.abortCheck (round + 1) every)

/-- The first executor that can do a step, and the step. -/
def ready? (course : Course) : Option (Nat × Choice) :=
  course.run.executors.zipIdx.findSome? fun (executor, lane) =>
    (executor.choose course.run.stop (course.due lane executor)).map (lane, ·)

/-- When the next timer of any executor fires. -/
def nextTimers? (course : Course) : Option Nat :=
  (course.run.executors.zipIdx.filterMap fun (executor, lane) =>
    course.nextTimer? lane executor).min?

/-- Waits until a time. -/
def advance (course : Course) (time : Nat) : Course := { course with now := max course.now time }

/-- Does the next thing: a step of an executor if one can do any, else what is due first, the agenda
before the timers. Nothing is left to do when the executors are not waited for any more. -/
def step? (course : Course) : Option Course :=
  if course.run.wait ≠ .goesOn then none
  else match course.ready? with
    | some (lane, choice) => some (course.perform lane choice)
    | none =>
      match course.agenda, course.nextTimers? with
      | [], none => none
      | [], some time => some (course.advance time)
      | first :: rest, timers =>
        match timers.filter (· < first.due) with
        | some time => some (course.advance time)
        | none => some (({ course with agenda := rest }.advance first.due).happen first.item)

/-- When there is something to do, unless a reply comes before. -/
def nextDue? (course : Course) : Option Nat :=
  if course.ready?.isSome then some course.now
  else (course.nextTimers?.toList ++ (course.agenda.head?.map (·.due)).toList).min?

/-- A course before its first step. -/
def start (run : Run) (terms : Terms) (epoch : Int) (agenda : List (Nat × Happening)) : Course where
  terms := terms
  run := run
  now := 0
  epoch := epoch
  agenda := Agenda.enterAll [] agenda
  errands := []
  lanes := run.executors.map fun _ => {}
  calls := []
  starts := []
  notices := []

/-- The rounds of the watcher: progress, and the fail-fast thresholds if there are any. -/
def watcher (config : RunConfig) : List (Nat × Happening) :=
  let first (every : Duration) (happening : Nat → Duration → Happening) : Nat × Happening :=
    (roundDue 1 every, happening 1 every)
  [first config.progressInterval .progress] ++
    if config.thresholds.any (·.abortOnFail) then [first config.abortCheckInterval .abortCheck]
    else []

/-- The course of a run that a configuration asks for, from what the two clocks show at its start;
stops are asked for at given times. -/
def ofConfig (config : RunConfig) (instant : Nat) (epoch : Int) (stop : StopCell)
    (stops : List (Nat × String)) : Except Fault Course := do
  config.validate
  let plans ← Plan.ofConfig config
  let agenda := stops.map (fun (time, reason) => (time, .stop (.ask reason))) ++ watcher config
  let terms : Terms := ⟨config.duration, config.gracePeriod, instant⟩
  .ok (start (.start plans config.thresholds stop) terms epoch agenda)

/-- The time that has passed. -/
def elapsed (course : Course) : Duration := .ofMillis course.now

/-- The report of a course that is over. There is none if an executor has failed. -/
def report (course : Course) (thresholds : List Threshold) (runId : RunId) (startedAt : Moment) :
    Except Fault Report :=
  match course.run.wait with
  | .failed _ => .error (.internal "scenario executor failed: task panicked")
  | .goesOn | .over => .ok (course.run.report thresholds runId startedAt course.elapsed)

end Course

end Cadence
