import Cadence.Proofs.Executor.Turn
import Cadence.Run

/-!
# The lanes of a run

The executors of a run do not touch each other: each of them sees its own events only, and the stop
cell at each of its steps. So what holds of an executor after every sequence of events holds of
every executor of a run, and the histories of a run fall apart into those of its executors.
-/

namespace Cadence

/-- What a history of all executors says of the one with that number. -/
def ofLane {α : Type} (lane : Nat) (history : List (Nat × α)) : List α :=
  (history.filter fun entry => entry.1 == lane).map (·.2)

section OfLane

variable {α : Type} {lane other : Nat}

@[simp] theorem ofLane_append (lane : Nat) (first second : List (Nat × α)) :
    ofLane lane (first ++ second) = ofLane lane first ++ ofLane lane second := by
  simp [ofLane]

theorem mem_ofLane {history : List (Nat × α)} {entry : α} :
    entry ∈ ofLane lane history ↔ (lane, entry) ∈ history := by
  simp [ofLane]

@[simp] theorem ofLane_map_self (entry : Option α) :
    ofLane lane (entry.map fun value => (lane, value)).toList = entry.toList := by
  cases entry <;> simp [ofLane]

theorem ofLane_map_of_ne (h : other ≠ lane) (entry : Option α) :
    ofLane lane (entry.map fun value => (other, value)).toList = [] := by
  cases entry <;> simp [ofLane, h]

theorem toList_filterMap {β : Type} (f : α → Option β) (value : Option α) :
    value.toList.filterMap f = (value.bind f).toList := by
  cases value with
  | none => rfl
  | some value => cases image : f value <;> simp [image]

end OfLane

namespace Run

/-- What an event means to the executor with that number. -/
def laneEvent? (run : Run) (lane : Nat) : RunEvent → Option LaneEvent
  | .step number choice => if number = lane then some (.step run.stop choice) else none
  | .task number worker stimulus => if number = lane then some (.task worker stimulus) else none
  | .stop _ | .progress | .abortCheck => none

/-- What a sequence of events means to the executor with that number. -/
def laneEvents (run : Run) (lane : Nat) : List RunEvent → List LaneEvent
  | [] => []
  | event :: events =>
    (run.laneEvent? lane event).toList ++ (run.apply event).laneEvents lane events

/-- What is noted of an event, with the number of the executor whose event it is. -/
def noted {α : Type} (note : Executor → LaneEvent → Option α) (run : Run) :
    RunEvent → Option (Nat × α)
  | .step lane choice =>
    (run.executors[lane]?.bind fun executor => note executor (.step run.stop choice)).map
      fun entry => (lane, entry)
  | .task lane worker stimulus =>
    (run.executors[lane]?.bind fun executor => note executor (.task worker stimulus)).map
      fun entry => (lane, entry)
  | .stop _ | .progress | .abortCheck => none

/-- What is noted along a sequence of events, the earliest first. -/
def history {α : Type} (note : Executor → LaneEvent → Option α) (run : Run) :
    List RunEvent → List (Nat × α)
  | [] => []
  | event :: events => (run.noted note event).toList ++ (run.apply event).history note events

/-- The deeds done along a sequence of events, each with the number of the executor. -/
def deeds (run : Run) (events : List RunEvent) : List (Nat × Deed) :=
  run.history Executor.eventDeed? events

/-- The legs flown along a sequence of events, each with the number of the executor. -/
def legs (run : Run) (events : List RunEvent) : List (Nat × Leg) :=
  run.history Executor.eventLeg? events

@[simp] theorem executors_write (run : Run) (record : Option Record) :
    (run.write record).executors = run.executors := by
  cases record <;> rfl

@[simp] theorem executors_abortCheck (run : Run) : run.abortCheck.executors = run.executors := by
  unfold abortCheck
  split
  · split <;> rfl
  · rfl

/-- An event of one executor leaves the others as they are. -/
theorem getElem?_set_apply {executors : List Executor} {number : Nat} {executor : Executor}
    (found : executors[number]? = some executor) (event : LaneEvent) (lane : Nat) :
    (executors.set number (executor.apply event))[lane]? =
      executors[lane]?.map fun executor =>
        executor.applyAll (if number = lane then some event else none).toList := by
  by_cases same : number = lane
  · subst same
    rw [List.getElem?_set_self', found, if_pos rfl]
    rfl
  · rw [List.getElem?_set_ne same, if_neg same]
    exact (Option.map_id' ..).symm

/-- An event of an executor that is not there leaves all as they are. -/
theorem getElem?_of_missing {executors : List Executor} {number : Nat}
    (missing : executors[number]? = none) (event : LaneEvent) (lane : Nat) :
    executors[lane]? = executors[lane]?.map fun executor =>
      executor.applyAll (if number = lane then some event else none).toList := by
  by_cases same : number = lane
  · subst same
    rw [missing]
    rfl
  · rw [if_neg same]
    exact (Option.map_id' ..).symm

/-- One event changes an executor as its lane says, and no other executor. -/
theorem executors_apply (run : Run) (event : RunEvent) (lane : Nat) :
    (run.apply event).executors[lane]? =
      run.executors[lane]?.map fun executor =>
        executor.applyAll (run.laneEvent? lane event).toList := by
  cases event with
  | step number choice =>
    cases found : run.executors[number]? with
    | none =>
      simp only [apply, found]
      exact getElem?_of_missing found (.step run.stop choice) lane
    | some executor =>
      simp only [apply, found, executors_write]
      exact getElem?_set_apply found (.step run.stop choice) lane
  | task number worker stimulus =>
    cases found : run.executors[number]? with
    | none =>
      simp only [apply, found]
      exact getElem?_of_missing found (.task worker stimulus) lane
    | some executor =>
      simp only [apply, found]
      exact getElem?_set_apply found (.task worker stimulus) lane
  | stop reason => exact (Option.map_id' ..).symm
  | progress => exact (Option.map_id' ..).symm
  | abortCheck =>
    simp only [apply, executors_abortCheck]
    exact (Option.map_id' ..).symm

/-- An executor of a run has met the events of its lane. -/
theorem executors_applyAll (run : Run) (events : List RunEvent) (lane : Nat) :
    (run.applyAll events).executors[lane]? =
      run.executors[lane]?.map fun executor =>
        executor.applyAll (run.laneEvents lane events) := by
  induction events generalizing run with
  | nil => simp [laneEvents]
  | cons event events ih =>
    rw [applyAll_cons, ih, executors_apply, Option.map_map]
    simp only [Function.comp_def, laneEvents, Executor.applyAll_append]

theorem history_append {α : Type} (note : Executor → LaneEvent → Option α) (run : Run)
    (first second : List RunEvent) :
    run.history note (first ++ second) =
      run.history note first ++ (run.applyAll first).history note second := by
  induction first generalizing run with
  | nil => rfl
  | cons event first ih => simp [history, ih, applyAll_cons, List.append_assoc]

theorem ofLane_noted {α : Type} (note : Executor → LaneEvent → Option α) {run : Run} {lane : Nat}
    {executor : Executor} (found : run.executors[lane]? = some executor) (event : RunEvent) :
    ofLane lane (run.noted note event).toList =
      executor.history note (run.laneEvent? lane event).toList := by
  cases event with
  | step number choice =>
    by_cases same : number = lane
    · subst same
      simp [noted, laneEvent?, found, Executor.history]
    · rw [noted, ofLane_map_of_ne same, laneEvent?, if_neg same]
      rfl
  | task number worker stimulus =>
    by_cases same : number = lane
    · subst same
      simp [noted, laneEvent?, found, Executor.history]
    · rw [noted, ofLane_map_of_ne same, laneEvent?, if_neg same]
      rfl
  | stop reason => rfl
  | progress => rfl
  | abortCheck => rfl

/-- What a history of a run says of one executor is the history of that executor. -/
theorem ofLane_history {α : Type} (note : Executor → LaneEvent → Option α) {run : Run} {lane : Nat}
    {executor : Executor} (found : run.executors[lane]? = some executor)
    (events : List RunEvent) :
    ofLane lane (run.history note events) =
      executor.history note (run.laneEvents lane events) := by
  induction events generalizing run executor with
  | nil => rfl
  | cons event events ih =>
    have next := executors_apply run event lane
    rw [found] at next
    rw [history, ofLane_append, ofLane_noted note found, ih next, laneEvents,
      Executor.history_append]

/-- Nothing is noted of an executor that is not there. -/
theorem ofLane_history_of_missing {α : Type} (note : Executor → LaneEvent → Option α) {run : Run}
    {lane : Nat} (missing : run.executors[lane]? = none) (events : List RunEvent) :
    ofLane lane (run.history note events) = [] := by
  induction events generalizing run with
  | nil => rfl
  | cons event events ih =>
    have next := executors_apply run event lane
    rw [missing] at next
    rw [history, ofLane_append, ih next, List.append_nil]
    cases event with
    | step number choice =>
      by_cases same : number = lane
      · simp [noted, same, missing, ofLane]
      · exact ofLane_map_of_ne same _
    | task number worker stimulus =>
      by_cases same : number = lane
      · simp [noted, same, missing, ofLane]
      · exact ofLane_map_of_ne same _
    | stop reason => rfl
    | progress => rfl
    | abortCheck => rfl

section Start

variable {plans : List Plan} {lane : Nat} {plan : Plan}

theorem executors_start (plans : List Plan) (thresholds : List Threshold) (cell : StopCell)
    (lane : Nat) :
    (start plans thresholds cell).executors[lane]? =
      plans[lane]?.map fun plan => Executor.subscribe plan cell := by
  simp [start]

/-- Every executor of a run has a plan. -/
theorem planned_of_found {thresholds : List Threshold} {cell : StopCell} {events : List RunEvent}
    {executor : Executor}
    (found : ((start plans thresholds cell).applyAll events).executors[lane]? = some executor) :
    ∃ plan, plans[lane]? = some plan := by
  rw [executors_applyAll, executors_start] at found
  cases planned : plans[lane]? with
  | none =>
    rw [planned] at found
    cases found
  | some plan => exact ⟨plan, rfl⟩

theorem ofLane_history_of_unplanned {α : Type} (note : Executor → LaneEvent → Option α)
    (unplanned : plans[lane]? = none) {thresholds : List Threshold} {cell : StopCell}
    (events : List RunEvent) :
    ofLane lane ((start plans thresholds cell).history note events) = [] := by
  refine ofLane_history_of_missing note ?_ events
  rw [executors_start, unplanned]
  rfl

/-- An executor of a run is that of its plan after some events, and what is noted of it is what is
noted along them. -/
theorem lane_of_planned (planned : plans[lane]? = some plan) (thresholds : List Threshold)
    (cell : StopCell) (events : List RunEvent) :
    ∃ own, ((start plans thresholds cell).applyAll events).executors[lane]? =
        some ((Executor.subscribe plan cell).applyAll own) ∧
      ∀ {α : Type} (note : Executor → LaneEvent → Option α),
        ofLane lane ((start plans thresholds cell).history note events) =
          (Executor.subscribe plan cell).history note own := by
  have first : (start plans thresholds cell).executors[lane]? =
      some (Executor.subscribe plan cell) := by
    rw [executors_start, planned]
    rfl
  refine ⟨(start plans thresholds cell).laneEvents lane events, ?_, ?_⟩
  · rw [executors_applyAll, first]
    rfl
  · exact fun note => ofLane_history note first events

/-- What holds of an executor after every sequence of events holds of every executor of a run, with
the deeds and the legs of its lane. -/
theorem lane_applyAll {motive : Executor → List Deed → List Leg → Prop} {cell : StopCell}
    (every : ∀ events : List LaneEvent, motive ((Executor.subscribe plan cell).applyAll events)
      ((Executor.subscribe plan cell).deeds events) ((Executor.subscribe plan cell).legs events))
    (found : plans[lane]? = some plan) (thresholds : List Threshold) (events : List RunEvent) :
    ∃ executor, ((start plans thresholds cell).applyAll events).executors[lane]? = some executor ∧
      motive executor (ofLane lane ((start plans thresholds cell).deeds events))
        (ofLane lane ((start plans thresholds cell).legs events)) := by
  obtain ⟨own, met, noted⟩ := lane_of_planned found thresholds cell events
  refine ⟨_, met, ?_⟩
  rw [deeds, legs, noted, noted]
  exact every own

end Start

/-- What a deed writes into the ledger of a run. -/
def record? (run : Run) (entry : Nat × Deed) : Option Record :=
  run.executors[entry.1]?.bind fun executor => entry.2.record? executor.plan.scenario.name

theorem record?_apply (run : Run) (event : RunEvent) : (run.apply event).record? = run.record? := by
  funext entry
  unfold record?
  rw [executors_apply]
  cases run.executors[entry.1]? with
  | none => rfl
  | some executor => simp

theorem ledger_write (run : Run) (record : Option Record) :
    (run.write record).ledger = record.toList.foldl Ledger.add run.ledger := by
  cases record <;> rfl

@[simp] theorem ledger_abortCheck (run : Run) : run.abortCheck.ledger = run.ledger := by
  unfold abortCheck
  split
  · split <;> rfl
  · rfl

theorem ledger_apply (run : Run) (event : RunEvent) :
    (run.apply event).ledger =
      ((run.noted Executor.eventDeed? event).toList.filterMap run.record?).foldl Ledger.add
        run.ledger := by
  cases event with
  | step lane choice =>
    cases found : run.executors[lane]? with
    | none => simp [apply, noted, found]
    | some executor =>
      have record : (run.noted Executor.eventDeed? (.step lane choice)).bind run.record? =
          (executor.perform run.stop choice).2 := by
        rw [Executor.perform_record, noted, found]
        cases deed : executor.deed? choice <;> simp [Executor.eventDeed?, deed, record?, found]
      rw [toList_filterMap, record]
      simp only [apply, found]
      exact ledger_write (run.setExecutor lane _) _
  | task lane worker stimulus =>
    have none : run.noted Executor.eventDeed? (.task lane worker stimulus) = none := by
      cases found : run.executors[lane]? <;> simp [noted, found, Executor.eventDeed?]
    rw [none]
    cases found : run.executors[lane]? <;> simp [apply, found, setExecutor]
  | stop reason => rfl
  | progress => rfl
  | abortCheck => exact ledger_abortCheck run

/-- The ledger of a run holds what the deeds of its executors write, in the order in which they are
done, and nothing else. -/
theorem ledger_applyAll (run : Run) (events : List RunEvent) :
    (run.applyAll events).ledger =
      ((run.deeds events).filterMap run.record?).foldl Ledger.add run.ledger := by
  induction events generalizing run with
  | nil => rfl
  | cons event events ih =>
    rw [applyAll_cons, ih, ledger_apply, record?_apply, deeds, deeds, history,
      List.filterMap_append, List.foldl_append]

@[simp] theorem requests_write (run : Run) (record : Option Record) :
    (run.write record).requests = run.requests := by
  cases record <;> rfl

@[simp] theorem requests_abortCheck (run : Run) : run.abortCheck.requests = run.requests := by
  unfold abortCheck
  split
  · split <;> rfl
  · rfl

theorem requests_apply (run : Run) (event : RunEvent) :
    (run.apply event).requests =
      ((run.noted Executor.eventLeg? event).toList.filterMap (·.2.request)).reverse ++
        run.requests := by
  cases event with
  | step lane choice =>
    have none : run.noted Executor.eventLeg? (.step lane choice) = none := by
      cases found : run.executors[lane]? <;> simp [noted, found, Executor.eventLeg?]
    rw [none]
    cases found : run.executors[lane]? <;> simp [apply, found, setExecutor]
  | task lane worker stimulus =>
    cases found : run.executors[lane]? with
    | none => simp [apply, noted, found]
    | some executor =>
      have request : (run.noted Executor.eventLeg? (.task lane worker stimulus)).bind
          (·.2.request) = (executor.stimulate worker stimulus).2 := by
        rw [Executor.stimulate_request, noted, found]
        cases leg : executor.leg? worker stimulus <;> simp [Executor.eventLeg?, leg]
      rw [toList_filterMap, request]
      simp only [apply, found]
      cases (executor.stimulate worker stimulus).2 <;> rfl
  | stop reason => rfl
  | progress => rfl
  | abortCheck => exact requests_abortCheck run

/-- The requests of a run are those of the legs flown, in that order. -/
theorem requests_applyAll (run : Run) (events : List RunEvent) :
    (run.applyAll events).requests.reverse =
      run.requests.reverse ++ (run.legs events).filterMap (·.2.request) := by
  induction events generalizing run with
  | nil => simp [legs, history]
  | cons event events ih =>
    rw [applyAll_cons, ih, requests_apply]
    simp [legs, history]

end Run

end Cadence
