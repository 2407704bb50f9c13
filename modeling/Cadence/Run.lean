import Cadence.Executor
import Cadence.Report

/-!
# Runs

A run consists of one executor for each scenario, a ledger that all of them write into, a stop cell
that all of them watch, and a watcher that reports progress and judges the fail-fast thresholds from
time to time. `Run.apply` does one step; a run is a sequence of events in any order.

Sections 5 and 10.6 of the specification.
-/

namespace Cadence

structure Run where
  executors : List Executor
  ledger : Ledger
  stop : StopCell
  /-- The thresholds that stop the run when they fail while it is going on. -/
  failFast : List Threshold
  /-- Whether the watcher waits for its next abort check. It decides that whenever it goes back to
  waiting. -/
  listening : Bool
  /-- The requests made, the latest first. -/
  requests : List Request

/-- A step of a run. -/
inductive RunEvent where
  /-- A step of the executor with that number. -/
  | step (lane : Nat) (choice : Choice)
  /-- An iteration of the executor with that number goes on. -/
  | task (lane worker : Nat) (stimulus : Stimulus)
  /-- Somebody asks for a stop. -/
  | stop (reason : String)
  /-- The watcher reports progress. -/
  | progress
  /-- It is time for the watcher to judge the fail-fast thresholds. -/
  | abortCheck
  deriving Repr

/-- How far the wait for the executors has come. They are waited for one after another, and the
first that has failed ends the wait. -/
inductive Wait where
  | goesOn
  /-- The executor with that number has failed. -/
  | failed (lane : Nat)
  | over
  deriving Repr, DecidableEq

namespace Run

/-- A run before its first step. -/
def start (plans : List Plan) (thresholds : List Threshold) (stop : StopCell) : Run where
  executors := plans.map fun plan => Executor.subscribe plan stop
  ledger := .empty
  stop := stop
  failFast := thresholds.filter (·.abortOnFail)
  listening := !stop.isStopped
  requests := []

/-- Changes the executor with a number. -/
def setExecutor (run : Run) (lane : Nat) (executor : Executor) : Run :=
  { run with executors := run.executors.set lane executor }

/-- Writes what an executor has to say. -/
def write (run : Run) : Option Record → Run
  | none => run
  | some record => { run with ledger := run.ledger.add record }

/-- Why the run is to stop because of a threshold that failed. -/
def crossedReason (threshold : Threshold) (observed : Float) : String :=
  "threshold `" ++ threshold.text ++ "` failed with " ++ Decimal.plain observed

/-- The first fail-fast threshold that has a value and fails, with that value. No data is no
failure (10.6). -/
def crossed? (run : Run) : Option (Threshold × Float) :=
  run.failFast.findSome? fun threshold =>
    let judgement := run.ledger.judge threshold
    match judgement.observed with
    | none => none
    | some observed => if judgement.passed then none else some (threshold, observed)

/-- The watcher goes back to waiting. It waits for no more abort checks once a stop has been asked
for. -/
def listen (run : Run) : Run := { run with listening := !run.stop.isStopped }

/-- Judges the fail-fast thresholds, if the watcher waits for that. It asks for a stop even if
somebody else has done so since it began to wait. -/
def abortCheck (run : Run) : Run :=
  if run.listening then
    match run.crossed? with
    | none => run.listen
    | some (threshold, observed) =>
      { run with stop := run.stop.stop (crossedReason threshold observed) }.listen
  else run

/-- Does one step. -/
def apply (run : Run) : RunEvent → Run
  | .step lane choice =>
    match run.executors[lane]? with
    | none => run
    | some executor =>
      let (executor, record) := executor.perform run.stop choice
      (run.setExecutor lane executor).write record
  | .task lane worker stimulus =>
    match run.executors[lane]? with
    | none => run
    | some executor =>
      let (executor, request) := executor.stimulate worker stimulus
      let run := run.setExecutor lane executor
      { run with requests := request.toList ++ run.requests }
  | .stop reason => { run with stop := run.stop.stop reason }
  | .progress => run.listen
  | .abortCheck => run.abortCheck

/-- The run after a sequence of events. -/
def applyAll (run : Run) (events : List RunEvent) : Run := events.foldl apply run

@[simp] theorem applyAll_nil (run : Run) : run.applyAll [] = run := rfl

@[simp] theorem applyAll_cons (run : Run) (event : RunEvent) (events : List RunEvent) :
    run.applyAll (event :: events) = (run.apply event).applyAll events := rfl

/-- A run goes on where the first events have left it. -/
theorem applyAll_append (run : Run) (first second : List RunEvent) :
    run.applyAll (first ++ second) = (run.applyAll first).applyAll second :=
  List.foldl_append

/-- How far the wait for executors has come, the first of which has a number. -/
def waitFrom (lane : Nat) : List Executor → Wait
  | [] => .over
  | executor :: rest =>
    match executor.stage with
    | .ended => waitFrom (lane + 1) rest
    | .failed => .failed lane
    | .idle | .dispatching | .draining => .goesOn

/-- How far the wait for the executors has come. -/
def wait (run : Run) : Wait := waitFrom 0 run.executors

/-- The accounting of an executor (10.7). -/
def statsOf (executor : Executor) : ScenarioStats where
  scenario := executor.plan.scenario.name
  targetRate := executor.plan.rate
  workers := executor.plan.workers
  dispatched := executor.counters.dispatched
  completed := executor.counters.completed
  dropped := executor.counters.dropped
  abandoned := executor.counters.abandoned

/-- The verdict by the ledger and the stop cell as they are. -/
def verdict (run : Run) (thresholds : List Threshold) : Verdict :=
  (run.ledger.evaluate thresholds).withAbort run.stop.reason

/-- The report of a run that has ended. -/
def report (run : Run) (thresholds : List Threshold) (runId : RunId) (startedAt : Moment)
    (elapsed : Duration) : Report where
  runId := runId
  startedAt := startedAt
  elapsed := elapsed.toSeconds
  verdict := run.verdict thresholds
  scenarios := run.executors.map statsOf
  summaries := run.ledger.summary

end Run

end Cadence
