import Cadence.Proofs.Executor.Stage
import Cadence.Proofs.Run.Stop

/-!
# Stops that come late

A report does not say why the executors of its run have left off: it shows the reason that the stop
cell holds when the last of them has returned. A stop that is asked for while iterations are merely
awaited reaches no executor that still dispatches, and yet the report calls the run aborted.
-/

namespace Cadence

namespace Run

/-- Why executors leave off along a sequence of events, each with its number. -/
def leaves (run : Run) (events : List RunEvent) : List (Nat × Leave) :=
  run.history Executor.leave? events

/-- An executor that leaves off because of a stop finds the cell of the run stopped. -/
theorem isStopped_of_noted {run : Run} {event : RunEvent} {lane : Nat}
    (left : run.noted Executor.leave? event = some (lane, .stopped)) :
    run.stop.isStopped = true := by
  cases event with
  | step number choice =>
    obtain ⟨leave, left, same⟩ := Option.map_eq_some_iff.mp left
    cases same
    obtain ⟨executor, -, left⟩ := Option.bind_eq_some_iff.mp left
    exact Executor.isStopped_of_leave? left
  | task number worker stimulus =>
    obtain ⟨leave, left, -⟩ := Option.map_eq_some_iff.mp left
    obtain ⟨executor, -, left⟩ := Option.bind_eq_some_iff.mp left
    cases left
  | stop reason => cases left
  | progress => cases left
  | abortCheck => cases left

/-- No executor leaves off because of a stop before one is asked for. -/
theorem isStopped_of_left {run : Run} {events : List RunEvent} {lane : Nat}
    (left : (lane, .stopped) ∈ run.leaves events) :
    (run.applyAll events).stop.isStopped = true := by
  induction events generalizing run with
  | nil => cases left
  | cons event events ih =>
    rw [leaves, history, List.mem_append] at left
    rcases left with now | later
    · have stopped := isStopped_of_noted (Option.mem_toList.mp now)
      exact isStopped_applyAll (isStopped_apply stopped event) events
    · exact ih later

/-- When all executors have left off and no stop has been asked for, each of them has left off
because its time was over, and nothing changes that. -/
theorem leaves_of_elapsed {plans : List Plan} {thresholds : List Threshold} {cell : StopCell}
    {before : List RunEvent} {lane : Nat} (inside : lane < plans.length)
    (unstopped : ((start plans thresholds cell).applyAll before).stop.reason = none)
    (left : ∀ executor ∈ ((start plans thresholds cell).applyAll before).executors,
      executor.hasLeft = true) (after : List RunEvent) :
    ofLane lane ((start plans thresholds cell).leaves (before ++ after)) = [.elapsed] := by
  have planned : plans[lane]? = some plans[lane] := List.getElem?_eq_getElem inside
  obtain ⟨own, met, noted⟩ := lane_of_planned planned thresholds cell before
  have gone := left _ (List.mem_of_getElem? met)
  have later := ofLane_history Executor.leave? met after
  rw [Executor.leaves_of_hasLeft gone] at later
  rw [leaves, history_append, ofLane_append, later, List.append_nil]
  rcases Executor.leaves_cases plans[lane] cell own with ⟨-, going⟩ | ⟨leave, one, -⟩
  · cases gone.symm.trans going
  · rw [noted, one]
    cases leave with
    | elapsed => rfl
    | stopped =>
      have seen : (lane, Leave.stopped) ∈ (start plans thresholds cell).leaves before := by
        rw [← mem_ofLane, leaves, noted, one]
        exact List.mem_singleton_self _
      have stopped := isStopped_of_left seen
      rw [StopCell.isStopped, unstopped] at stopped
      cases stopped

/-- What a report says of a stop, and what it does not.

If an executor has left off because of a stop, the report shows a reason. The other way round
nothing follows: when all executors have left off at their deadlines and iterations are merely
awaited, a stop that anybody asks for makes the report call the run aborted, and failed. -/
theorem aborted_by_late_stop (plans : List Plan) (thresholds : List Threshold) (cell : StopCell)
    (events : List RunEvent) :
    let start := Run.start plans thresholds cell
    let run := start.applyAll events
    ∀ runId startedAt elapsed, let report := run.report thresholds runId startedAt elapsed
      (∀ lane, (lane, .stopped) ∈ start.leaves events → report.verdict.aborted.isSome = true) ∧
      ∀ before event after reason, events = before ++ event :: after →
        (start.applyAll before).stop.reason = none →
        (∀ executor ∈ (start.applyAll before).executors, executor.hasLeft = true) →
        (start.applyAll before).stopRequest? event = some reason →
        report.verdict.aborted = some reason ∧ report.passed = false ∧
        ∀ lane < plans.length, ofLane lane (start.leaves events) = [.elapsed] := by
  intro start run runId startedAt elapsed report
  refine ⟨fun lane left => isStopped_of_left left, ?_⟩
  rintro before event after reason rfl unstopped left asks
  have aborted : report.verdict.aborted = some reason := by
    show run.stop.reason = some reason
    rw [show run = _ from applyAll_append start before (event :: after), reason_applyAll, unstopped,
      stopRequests, asks]
    rfl
  refine ⟨aborted, ?_, fun lane inside => ?_⟩
  · show (_ && report.verdict.aborted.isNone) = false
    rw [aborted]
    exact Bool.and_false _
  · exact leaves_of_elapsed inside unstopped left (event :: after)

/-- One iteration, which is still awaited when its executor has left off at the deadline. -/
def awaited : List RunEvent :=
  [.step 0 .enter, .step 0 .tick, .task 0 0 (.begin 7), .step 0 .deadline]

/-- Somebody asks for a stop; then the iteration is answered. -/
def lateStop : List RunEvent :=
  [.stop "late", .task 0 0 (.answer (.ofStatus 200 .zero)), .step 0 (.join 0)]

theorem aborted_by_late_stop_awaited :
    let plans : List Plan := [⟨.ping .zero, 1, .ofMillis 1000, 1, 0⟩]
    let start := Run.start plans [] (.initial none)
    let left := start.applyAll awaited
    let late := (start.applyAll (awaited ++ lateStop)).report [] ⟨1⟩ ⟨0, 0⟩ (.ofSecs 3)
    let early := (start.applyAll [.stop "early", .step 0 .enter]).report [] ⟨1⟩ ⟨0, 0⟩ .zero
    ((0, .stopped) ∈ start.leaves [.stop "early", .step 0 .enter] ∧
      early.verdict.aborted.isSome = true) ∧
    (left.stop.reason = none ∧ (∀ executor ∈ left.executors, executor.hasLeft = true) ∧
      left.stopRequest? (.stop "late") = some "late") ∧
    late.verdict.aborted = some "late" ∧ late.passed = false ∧
    ∀ lane < 1, ofLane lane (start.leaves (awaited ++ lateStop)) = [.elapsed] := by
  intro plans start left late early
  have unstopped : left.stop.reason = none := by decide +kernel
  have gone : left.executors.all (·.hasLeft) = true := by decide +kernel
  have gone : ∀ executor ∈ left.executors, executor.hasLeft = true := by simpa using gone
  have seen : (0, Leave.stopped) ∈ start.leaves [.stop "early", .step 0 .enter] := by
    decide +kernel
  obtain ⟨stopped, -⟩ := aborted_by_late_stop plans [] (.initial none)
    [.stop "early", .step 0 .enter] ⟨1⟩ ⟨0, 0⟩ .zero
  obtain ⟨-, aborted⟩ := aborted_by_late_stop plans [] (.initial none) (awaited ++ lateStop) ⟨1⟩
    ⟨0, 0⟩ (.ofSecs 3)
  exact ⟨⟨seen, stopped 0 seen⟩, ⟨unstopped, gone, rfl⟩,
    aborted awaited (.stop "late") lateStop.tail "late" rfl unstopped gone rfl⟩

/-- A run whose only executor has dispatched until its deadline, and whose thresholds pass, is
called aborted and fails. -/
theorem aborted_though_elapsed :
    let start := Run.start [⟨.ping .zero, 1, .ofMillis 1000, 1, 0⟩] [] (.initial none)
    let run := start.applyAll (awaited ++ lateStop)
    let report := run.report [] ⟨1⟩ ⟨0, 0⟩ (.ofSecs 3)
    run.wait = .over ∧ start.leaves (awaited ++ lateStop) = [(0, .elapsed)] ∧
    (run.ledger.evaluate []).passed = true ∧ report.passed = false ∧
    ¬ (report.verdict.aborted.isSome = true →
      ∃ lane, (lane, .stopped) ∈ start.leaves (awaited ++ lateStop)) := by
  intro start run report
  have left : start.leaves (awaited ++ lateStop) = [(0, .elapsed)] := by decide +kernel
  refine ⟨by decide +kernel, left, by decide +kernel, by decide +kernel, fun stopped => ?_⟩
  obtain ⟨lane, seen⟩ := stopped (by decide +kernel)
  rw [left] at seen
  simp at seen

end Run

end Cadence
