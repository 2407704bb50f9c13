import Cadence.Course
import Cadence.Proofs.Run.Lanes
import Cadence.Proofs.Run.Plan

/-!
# The stop of a run

A stop is asked for from outside or by the watcher. Whatever the order of steps, checks and requests
is, the stop cell keeps the first request, and a report shows the one that came before it. The
watcher asks for a stop because of the first fail-fast threshold that the ledger contradicts; a
threshold without data, or one that is not fail-fast, stops no run.

The watcher decides whenever it goes back to waiting whether it waits for an abort check. A check
that it waits for is judged even if a stop has been asked for meanwhile; the cell stays as it is
then.
-/

namespace Cadence

/-- A fail-fast threshold has a value, and the value fails it. -/
structure Ledger.Crosses (ledger : Ledger) (threshold : Threshold) (value : Float) : Prop where
  failFast : threshold.abortOnFail = true
  observed : ledger.observe threshold.selector threshold.predicate.aggregation = some value
  fails : threshold.predicate.holds value = false

/-- The first of some thresholds that is crossed. -/
def Ledger.CrossesFirst (ledger : Ledger) (thresholds : List Threshold) (threshold : Threshold)
    (value : Float) : Prop :=
  ∃ before after, thresholds = before ++ threshold :: after ∧ ledger.Crosses threshold value ∧
    ∀ other ∈ before, ∀ value, ¬ ledger.Crosses other value

/-- What the watcher does before it goes back to waiting. -/
def RunEvent.isRound : RunEvent → Bool
  | .progress | .abortCheck => true
  | .step .. | .task .. | .stop _ => false

namespace Run

/-- The stop that an event asks for. -/
def stopRequest? (run : Run) : RunEvent → Option String
  | .stop reason => some reason
  | .abortCheck =>
    if run.listening then run.crossed?.map fun crossed => crossedReason crossed.1 crossed.2
    else none
  | .step .. | .task .. | .progress => none

/-- The stops asked for along a sequence of events, the earliest first. -/
def stopRequests (run : Run) : List RunEvent → List String
  | [] => []
  | event :: events => (run.stopRequest? event).toList ++ (run.apply event).stopRequests events

theorem stopRequests_append (run : Run) (first second : List RunEvent) :
    run.stopRequests (first ++ second) =
      run.stopRequests first ++ (run.applyAll first).stopRequests second := by
  induction first generalizing run with
  | nil => rfl
  | cons event first ih => simp [stopRequests, ih, applyAll_cons, List.append_assoc]

/-- Two runs with the same stop cell, whose watchers wait for the same. -/
structure SameWatch (run other : Run) : Prop where
  stop : other.stop = run.stop
  failFast : other.failFast = run.failFast
  listening : other.listening = run.listening

/-- An executor writes into the ledger and leaves the watcher alone. -/
theorem sameWatch_step (run : Run) (lane : Nat) (choice : Choice) :
    run.SameWatch (run.apply (.step lane choice)) := by
  cases found : run.executors[lane]? with
  | none => constructor <;> simp [apply, found]
  | some executor =>
    simp only [apply, found]
    cases (executor.perform run.stop choice).2 <;> exact ⟨rfl, rfl, rfl⟩

/-- An iteration makes requests and leaves the watcher alone. -/
theorem sameWatch_task (run : Run) (lane worker : Nat) (stimulus : Stimulus) :
    run.SameWatch (run.apply (.task lane worker stimulus)) := by
  cases found : run.executors[lane]? <;> constructor <;> simp [apply, found, setExecutor]

/-- An event does nothing to the stop cell but make its request. -/
theorem stop_apply (run : Run) (event : RunEvent) :
    (run.apply event).stop = (run.stopRequest? event).elim run.stop run.stop.stop := by
  cases event with
  | step lane choice => exact (sameWatch_step run lane choice).stop
  | task lane worker stimulus => exact (sameWatch_task run lane worker stimulus).stop
  | stop reason => rfl
  | progress => rfl
  | abortCheck =>
    simp only [apply, abortCheck, stopRequest?]
    split
    · cases run.crossed? <;> rfl
    · rfl

/-- The first request takes the cell, if it is free, and later ones find it taken. -/
theorem stop_applyAll (run : Run) (events : List RunEvent) :
    (run.applyAll events).stop = (run.stopRequests events).head?.elim run.stop run.stop.stop := by
  -- The run is generalized, since its cell may be taken by the first event; the requests of the
  -- rest then leave it alone.
  induction events generalizing run with
  | nil => rfl
  | cons event events ih =>
    rw [applyAll_cons, ih, stop_apply, stopRequests]
    cases run.stopRequest? event with
    | none => rfl
    | some reason =>
      have taken := StopCell.stop_of_isStopped (StopCell.isStopped_stop run.stop reason)
      cases (run.apply event).stopRequests events with
      | nil => rfl
      | cons later rest => exact taken later

/-- A run is stopped for the reason that its cell held, else for the first that was asked for. -/
theorem reason_applyAll (run : Run) (events : List RunEvent) :
    (run.applyAll events).stop.reason = run.stop.reason.or (run.stopRequests events).head? := by
  rw [stop_applyAll]
  cases (run.stopRequests events).head? with
  | none => exact (Option.or_none).symm
  | some reason => exact StopCell.reason_stop run.stop reason

theorem failFast_apply (run : Run) (event : RunEvent) :
    (run.apply event).failFast = run.failFast := by
  cases event with
  | step lane choice => exact (sameWatch_step run lane choice).failFast
  | task lane worker stimulus => exact (sameWatch_task run lane worker stimulus).failFast
  | stop reason => rfl
  | progress => rfl
  | abortCheck =>
    simp only [apply, abortCheck]
    split
    · cases run.crossed? <;> rfl
    · rfl

/-- The fail-fast thresholds of a run stay. -/
theorem failFast_applyAll (run : Run) (events : List RunEvent) :
    (run.applyAll events).failFast = run.failFast := by
  induction events generalizing run with
  | nil => rfl
  | cons event events ih => rw [applyAll_cons, ih, failFast_apply]

section Listening

/-- The watcher stops listening only when a stop has been asked for. -/
def Heedful (run : Run) : Prop := run.listening = false → run.stop.isStopped = true

theorem listening_apply_of_not_isRound {run : Run} {event : RunEvent}
    (h : event.isRound = false) : (run.apply event).listening = run.listening := by
  cases event with
  | step lane choice => exact (sameWatch_step run lane choice).listening
  | task lane worker stimulus => exact (sameWatch_task run lane worker stimulus).listening
  | stop reason => rfl
  | progress => cases h
  | abortCheck => cases h

/-- Between two rounds the watcher waits for what it has decided to wait for. -/
theorem listening_applyAll_of_not_isRound {run : Run} {events : List RunEvent}
    (h : ∀ event ∈ events, event.isRound = false) :
    (run.applyAll events).listening = run.listening := by
  induction events generalizing run with
  | nil => rfl
  | cons event events ih =>
    obtain ⟨first, rest⟩ := List.forall_mem_cons.mp h
    rw [applyAll_cons, ih rest, listening_apply_of_not_isRound first]

/-- After a round the watcher listens if no stop has been asked for. -/
theorem listening_apply_of_isRound {run : Run} (heedful : run.Heedful) {event : RunEvent}
    (h : event.isRound = true) :
    (run.apply event).listening = !(run.apply event).stop.isStopped := by
  cases event with
  | step lane choice => cases h
  | task lane worker stimulus => cases h
  | stop reason => cases h
  | progress => rfl
  | abortCheck =>
    simp only [apply, abortCheck]
    split
    next => cases run.crossed? <;> rfl
    next deaf =>
      have deaf : run.listening = false := by simpa using deaf
      rw [deaf, heedful deaf]
      rfl

theorem isStopped_apply {run : Run} (h : run.stop.isStopped = true) (event : RunEvent) :
    (run.apply event).stop.isStopped = true := by
  rw [stop_apply]
  cases run.stopRequest? event with
  | none => exact h
  | some reason => exact StopCell.isStopped_stop run.stop reason

/-- A run that is to stop stays so. -/
theorem isStopped_applyAll {run : Run} (h : run.stop.isStopped = true) (events : List RunEvent) :
    (run.applyAll events).stop.isStopped = true := by
  induction events generalizing run with
  | nil => exact h
  | cons event events ih => exact ih (isStopped_apply h event)

theorem heedful_apply {run : Run} (h : run.Heedful) (event : RunEvent) :
    (run.apply event).Heedful := by
  intro deaf
  cases round : event.isRound with
  | true =>
    rw [listening_apply_of_isRound h round] at deaf
    simpa using deaf
  | false =>
    rw [listening_apply_of_not_isRound round] at deaf
    exact isStopped_apply (h deaf) event

theorem heedful_applyAll {run : Run} (h : run.Heedful) (events : List RunEvent) :
    (run.applyAll events).Heedful := by
  induction events generalizing run with
  | nil => exact h
  | cons event events ih => exact ih (heedful_apply h event)

/-- Where the watcher goes back to waiting: at the start, and after each of its rounds. -/
def Waits (events : List RunEvent) : Prop :=
  ∀ event, events.getLast? = some event → event.isRound = true

/-- The watcher listens if no stop had been asked for when it went back to waiting. -/
theorem listening_of_waits (plans : List Plan) (thresholds : List Threshold) (cell : StopCell)
    {before between : List RunEvent} (waits : Waits before)
    (quiet : ∀ event ∈ between, event.isRound = false) :
    ((start plans thresholds cell).applyAll (before ++ between)).listening =
      !((start plans thresholds cell).applyAll before).stop.isStopped := by
  rw [applyAll_append, listening_applyAll_of_not_isRound quiet]
  rcases List.eq_nil_or_concat' before with rfl | ⟨first, last, rfl⟩
  · rfl
  · -- A check that is not waited for decides nothing, so the decision before has to be right still.
    have heedful : (start plans thresholds cell).Heedful := by simp [Heedful, start]
    rw [applyAll_append]
    exact listening_apply_of_isRound (heedful_applyAll heedful first) (waits last (by simp))

end Listening

section Crossing

/-- The value with which a threshold is crossed. -/
def crossing? (ledger : Ledger) (threshold : Threshold) : Option Float :=
  if threshold.abortOnFail then
    (ledger.observe threshold.selector threshold.predicate.aggregation).filter
      fun value => !threshold.predicate.holds value
  else none

theorem crossing?_eq_some_iff {ledger : Ledger} {threshold : Threshold} {value : Float} :
    crossing? ledger threshold = some value ↔ ledger.Crosses threshold value := by
  simp only [crossing?, Option.ite_none_right_eq_some, Option.filter_eq_some_iff,
    Bool.not_eq_true']
  exact ⟨fun ⟨failFast, observed, fails⟩ => ⟨failFast, observed, fails⟩,
    fun ⟨failFast, observed, fails⟩ => ⟨failFast, observed, fails⟩⟩

theorem crossing?_eq_none_iff {ledger : Ledger} {threshold : Threshold} :
    crossing? ledger threshold = none ↔ ∀ value, ¬ ledger.Crosses threshold value := by
  simp only [Option.eq_none_iff_forall_not_mem, Option.mem_def, crossing?_eq_some_iff]

/-- What the watcher looks for among the thresholds of a run. -/
theorem crossed?_eq {run : Run} {thresholds : List Threshold}
    (h : run.failFast = thresholds.filter (·.abortOnFail)) :
    run.crossed? = thresholds.findSome? fun threshold =>
      (crossing? run.ledger threshold).map fun value => (threshold, value) := by
  rw [crossed?, h]
  clear h
  induction thresholds with
  | nil => rfl
  | cons threshold thresholds ih =>
    cases failFast : threshold.abortOnFail with
    | false =>
      rw [List.filter_cons_of_neg (by simp [failFast]), ih, List.findSome?_cons]
      simp [crossing?, failFast]
    | true =>
      rw [List.filter_cons_of_pos failFast, List.findSome?_cons, List.findSome?_cons, ih]
      rcases Option.eq_none_or_eq_some
        (run.ledger.observe threshold.selector threshold.predicate.aggregation : Option Float)
        with missing | ⟨value, observed⟩
      · simp [Ledger.judge, Judgement.ofObserved, crossing?, missing]
      · cases holds : threshold.predicate.holds value <;>
          simp [Ledger.judge, Judgement.ofObserved, crossing?, failFast, observed, holds,
            Option.filter]

/-- The watcher finds the first threshold that is crossed. -/
theorem crossed?_eq_some_iff {run : Run} {thresholds : List Threshold}
    (h : run.failFast = thresholds.filter (·.abortOnFail)) {threshold : Threshold} {value : Float} :
    run.crossed? = some (threshold, value) ↔
      run.ledger.CrossesFirst thresholds threshold value := by
  rw [crossed?_eq h, List.findSome?_eq_some_iff]
  constructor
  · rintro ⟨before, first, after, split, found, clear⟩
    obtain ⟨value, crossing, ⟨⟩⟩ := Option.map_eq_some_iff.mp found
    exact ⟨before, after, split, crossing?_eq_some_iff.mp crossing, fun other member =>
      crossing?_eq_none_iff.mp (Option.map_eq_none_iff.mp (clear other member))⟩
  · rintro ⟨before, after, split, crosses, clear⟩
    refine ⟨before, threshold, after, split, ?_, fun other member => ?_⟩
    · rw [crossing?_eq_some_iff.mpr crosses]
      rfl
    · rw [crossing?_eq_none_iff.mpr (clear other member)]
      rfl

end Crossing

/-- What the watcher asks for at an abort check. -/
theorem stopRequest?_abortCheck {run : Run} {thresholds : List Threshold}
    (h : run.failFast = thresholds.filter (·.abortOnFail)) (reason : String) :
    run.stopRequest? .abortCheck = some reason ↔ run.listening = true ∧
      ∃ threshold value, run.ledger.CrossesFirst thresholds threshold value ∧
        reason = crossedReason threshold value := by
  simp only [stopRequest?, Option.ite_none_right_eq_some, Option.map_eq_some_iff, Prod.exists,
    crossed?_eq_some_iff h]
  simp only [eq_comm]

/-- With a request, the first threshold that is crossed has a place in the list. -/
theorem crosses_of_stopRequest? {run : Run} {thresholds : List Threshold}
    (h : run.failFast = thresholds.filter (·.abortOnFail)) {reason : String}
    (asks : run.stopRequest? .abortCheck = some reason) :
    ∃ threshold ∈ thresholds, ∃ value, run.ledger.Crosses threshold value := by
  obtain ⟨-, threshold, value, ⟨before, after, rfl, crosses, -⟩, -⟩ :=
    (stopRequest?_abortCheck h reason).mp asks
  exact ⟨threshold, by simp, value, crosses⟩

/-- The event with which the wait for the executors ends asks for no stop. -/
theorem stopRequest?_of_wait {run : Run} {event : RunEvent} (before : run.wait ≠ .over)
    (after : (run.apply event).wait = .over) : run.stopRequest? event = none := by
  cases event with
  | step lane choice => rfl
  | task lane worker stimulus => rfl
  | stop reason => exact absurd after before
  | progress => rfl
  | abortCheck =>
    rw [wait, apply, executors_abortCheck] at after
    exact absurd after before

/-- Without a request from outside and without a crossed threshold at an abort check, no stop is
asked for. -/
theorem stopRequests_eq_nil {run : Run} {thresholds : List Threshold}
    (h : run.failFast = thresholds.filter (·.abortOnFail)) {events : List RunEvent}
    (outside : ∀ reason, .stop reason ∉ events)
    (clear : ∀ before after, events = before ++ .abortCheck :: after → ∀ threshold ∈ thresholds,
      ∀ value, ¬ (run.applyAll before).ledger.Crosses threshold value) :
    run.stopRequests events = [] := by
  induction events generalizing run with
  | nil => rfl
  | cons event events ih =>
    have silent : run.stopRequest? event = none := by
      cases event with
      | step lane choice => rfl
      | task lane worker stimulus => rfl
      | stop reason => exact absurd (List.mem_cons_self ..) (outside reason)
      | progress => rfl
      | abortCheck =>
        refine Option.eq_none_iff_forall_ne_some.mpr fun reason asks => ?_
        obtain ⟨threshold, member, value, crosses⟩ := crosses_of_stopRequest? h asks
        exact clear [] events rfl threshold member value crosses
    rw [stopRequests, silent]
    refine ih (by rw [failFast_apply, h]) (fun reason member => ?_) fun before after split => ?_
    · exact outside reason (List.mem_cons_of_mem event member)
    · exact clear (event :: before) after (by rw [split, List.cons_append])

/-- The stop of a run after every sequence of events.

The cell changes once at most, by the first request that finds it free, and a report shows the
request that the cell has: for a report made when the wait for the executors ends, the first that
came before the last of them returned. At an abort check the watcher asks for a stop exactly if none
had been asked for when it last went back to waiting and the ledger, as it is now, crosses a
fail-fast threshold; the reason names the first of them, in the order of the configuration, with
its value. Nothing but a crossed threshold and a request from outside stops a run. -/
theorem stopped_by_first_request (plans : List Plan) (thresholds : List Threshold)
    (cell : StopCell) (events : List RunEvent) :
    let start := Run.start plans thresholds cell
    let run := start.applyAll events
    (run.stop = (start.stopRequests events).head?.elim cell cell.stop ∧
      run.stop.reason = cell.reason.or (start.stopRequests events).head?) ∧
    (∀ runId startedAt elapsed, let report := run.report thresholds runId startedAt elapsed
      report.verdict.aborted = cell.reason.or (start.stopRequests events).head? ∧
      ∀ before last, events = before ++ [last] → (start.applyAll before).wait ≠ .over →
        run.wait = .over →
        report.verdict.aborted = cell.reason.or (start.stopRequests before).head?) ∧
    (∀ before between, events = before ++ between → Waits before →
      (∀ event ∈ between, event.isRound = false) → ∀ reason,
        run.stopRequest? .abortCheck = some reason ↔
          (start.applyAll before).stop.reason = none ∧
            ∃ threshold value, run.ledger.CrossesFirst thresholds threshold value ∧
              reason = crossedReason threshold value) ∧
    ((∀ reason, .stop reason ∉ events) →
      (∀ before after, events = before ++ .abortCheck :: after → ∀ threshold ∈ thresholds,
        ∀ value, ¬ (start.applyAll before).ledger.Crosses threshold value) →
      run.stop = cell) := by
  intro start run
  have failFast : start.failFast = thresholds.filter (·.abortOnFail) := rfl
  have reason : run.stop.reason = cell.reason.or (start.stopRequests events).head? :=
    reason_applyAll start events
  refine ⟨⟨stop_applyAll start events, reason⟩, ?_, ?_, ?_⟩
  · intro runId startedAt elapsed report
    refine ⟨reason, ?_⟩
    rintro before last rfl going ended
    have silent : (start.applyAll before).stopRequest? last = none := by
      refine stopRequest?_of_wait going ?_
      rw [← ended, show run = _ from applyAll_append start before [last]]
      rfl
    have requests : start.stopRequests (before ++ [last]) = start.stopRequests before := by
      rw [stopRequests_append, stopRequests, silent]
      exact List.append_nil _
    rw [← requests]
    exact reason
  · rintro before between rfl waits quiet reason
    have listening : run.listening = !(start.applyAll before).stop.isStopped :=
      listening_of_waits plans thresholds cell waits quiet
    rw [stopRequest?_abortCheck (by rw [failFast_applyAll, failFast]) reason, listening]
    simp [StopCell.isStopped]
  · intro outside clear
    have none := stopRequests_eq_nil failFast outside clear
    rw [show run.stop = _ from stop_applyAll start events, none]
    rfl

/-- A watcher that has begun to wait for an abort check asks for a stop although the run has been
stopped meanwhile. -/
theorem asks_though_stopped : ∃ plans, Plan.ofConfig RunConfig.default = .ok plans ∧
    let thresholds : List Threshold := [⟨⟨.iterations, none⟩, ⟨.count, .gt, 0⟩, true⟩]
    let start := Run.start plans thresholds (.initial none)
    let run := start.applyAll [.step 0 .enter, .step 1 .enter, .step 0 .tick, .stop "enough"]
    run.stop.reason = some "enough" ∧
      run.stopRequest? .abortCheck = some "threshold `iterations: count>0` failed with 0" ∧
      ¬ ∀ reason, run.stopRequest? .abortCheck = some reason ↔ run.stop.reason = none ∧
        ∃ threshold value, run.ledger.CrossesFirst thresholds threshold value ∧
          reason = crossedReason threshold value := by
  obtain ⟨plans, h⟩ := Plan.ofConfig_default
  have computed : (Plan.ofConfig RunConfig.default).toOption.map (fun plans =>
      let run := (Run.start plans [⟨⟨.iterations, none⟩, ⟨.count, .gt, 0⟩, true⟩]
        (.initial none)).applyAll [.step 0 .enter, .step 1 .enter, .step 0 .tick, .stop "enough"]
      (run.stop.reason, run.stopRequest? .abortCheck)) =
      some (some "enough", some "threshold `iterations: count>0` failed with 0") := by
    decide +kernel
  rw [h] at computed
  obtain ⟨stopped, asks⟩ := Prod.ext_iff.mp (Option.some.inj computed)
  refine ⟨plans, h, stopped, asks, fun exact => ?_⟩
  have free := ((exact _).mp asks).1
  cases stopped.symm.trans free

end Run

end Cadence
