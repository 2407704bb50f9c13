import Cadence.Proofs.Executor.Accounts
import Cadence.Proofs.Ledger.Item
import Cadence.Proofs.Run.Lanes
import Cadence.Proofs.Run.Plan

/-!
# Two accounts of a run

What becomes of the iterations of a run is counted twice: by the counters of its executors, and by
the ledger that all of them write into. The accounts agree after every step, scenario by scenario,
and so the report, which shows both side by side, does not contradict itself.
-/

namespace Cadence

/-- What a deed counts for the scenario of its executor. -/
def Deed.item? : Deed → Option Item
  | .completed .. => some .iteration
  | .dropped => some .dropped
  | .started _ | .lost _ | .abandoned _ => none

/-- A counter of executors, and the field of tallies that counts the same. -/
structure Twin (counter : Counters → Nat) (field : Tally → Nat) (weight : Item → Nat) : Prop where
  weighs : Item.Weighs field weight
  check : ∀ passed, weight (.check passed) = 0
  sample : ∀ observed, weight (.sample observed) = 0
  zero : counter {} = 0
  turn : ∀ {executor next : Executor} {deed : Option Deed}, executor.Turn deed next →
    counter next.counters = counter executor.counters + (deed.bind Deed.item?).elim 0 weight

theorem twin_completed : Twin (·.completed) (·.iterations) Item.iterations where
  weighs := Item.weighs_iterations
  check _ := rfl
  sample _ := rfl
  zero := rfl
  turn turn := by cases turn <;> rfl

theorem twin_dropped : Twin (·.dropped) (·.dropped) Item.drops where
  weighs := Item.weighs_drops
  check _ := rfl
  sample _ := rfl
  zero := rfl
  turn turn := by cases turn <;> rfl

namespace Twin

variable {counter : Counters → Nat} {field : Tally → Nat} {weight : Item → Nat}

/-- What is observed during an iteration does not count as one. -/
theorem weight_iteration (twin : Twin counter field weight) (scope : Option String) (name : String)
    (outcome : Outcome) :
    ((Record.iteration name outcome).items.map (Ledger.weightIn scope weight)).sum =
      Ledger.weightIn scope weight (name, .iteration) := by
  have light : ((outcome.checks.map (fun check => (check.scenario, Item.check check.passed)) ++
      outcome.samples.map (fun sample => (sample.scenario, Item.sample sample))).map
        (Ledger.weightIn scope weight)).sum = 0 := by
    refine List.sum_eq_zero_iff_forall_eq_nat.mpr fun count member => ?_
    obtain ⟨item, inside, rfl⟩ := List.mem_map.mp member
    rcases List.mem_append.mp inside with inside | inside
    · obtain ⟨check, -, rfl⟩ := List.mem_map.mp inside
      simp [Ledger.weightIn, twin.check]
    · obtain ⟨sample, -, rfl⟩ := List.mem_map.mp inside
      simp [Ledger.weightIn, twin.sample]
  rw [Record.items, List.map_cons, List.sum_cons, light, Nat.add_zero]

/-- What a deed writes is counted in the scopes of its scenario. -/
theorem total_record (twin : Twin counter field weight) (ledger : Ledger) (scope : Option String)
    (name : String) (deed : Option Deed) :
    ((deed.bind (Deed.record? name)).toList.foldl Ledger.add ledger).total scope field =
      ledger.total scope field +
        if Ledger.inScope scope name then (deed.bind Deed.item?).elim 0 weight else 0 := by
  have nothing : ledger.total scope field = ledger.total scope field +
      if Ledger.inScope scope name then 0 else 0 := by simp
  cases deed with
  | none => exact nothing
  | some deed =>
    cases deed with
    | started slot => exact nothing
    | lost slot => exact nothing
    | abandoned slots => exact nothing
    | dropped =>
      refine (Ledger.total_add twin.weighs ledger scope (.dropped name)).trans ?_
      simp [Record.items, Ledger.weightIn, Deed.item?]
    | completed slot outcome =>
      refine (Ledger.total_add twin.weighs ledger scope (.iteration name outcome)).trans ?_
      rw [twin.weight_iteration]
      rfl

end Twin

/-- A new element changes the sum by what it adds to the one in its place. -/
theorem sum_map_set {α : Type} (f : α → Nat) {items : List α} {number : Nat} {item : α}
    (found : items[number]? = some item) (other : α) :
    ((items.set number other).map f).sum + f item = (items.map f).sum + f other := by
  induction items generalizing number with
  | nil => cases found
  | cons first items ih =>
    cases number with
    | zero =>
      obtain rfl : first = item := by simpa using found
      simp only [List.set_cons_zero, List.map_cons, List.sum_cons]
      omega
    | succ number =>
      have rest := ih (show items[number]? = some item by simpa using found)
      simp only [List.set_cons_succ, List.map_cons, List.sum_cons]
      omega

namespace Run

/-- The plans of a run stay. -/
theorem plans_applyAll (run : Run) (events : List RunEvent) :
    (run.applyAll events).executors.map (·.plan) = run.executors.map (·.plan) := by
  refine List.ext_getElem? fun lane => ?_
  rw [List.getElem?_map, List.getElem?_map, executors_applyAll]
  cases run.executors[lane]? with
  | none => rfl
  | some executor => simp

/-- The names of the scenarios of a run. -/
def names (run : Run) : List String := run.executors.map (·.plan.scenario.name)

theorem names_applyAll (run : Run) (events : List RunEvent) :
    (run.applyAll events).names = run.names := by
  have plans := congrArg (List.map (·.scenario.name)) (plans_applyAll run events)
  simpa [names, Function.comp_def] using plans

/-- The scenarios of a run are those for which a rate is configured. -/
theorem names_start {config : RunConfig} {plans : List Plan} (h : Plan.ofConfig config = .ok plans)
    (thresholds : List Threshold) (cell : StopCell) :
    (start plans thresholds cell).names = config.scenarioRates.map (·.1) := by
  rw [← (Plan.ofConfig_eq_ok h).1]
  simp [names, start, Function.comp_def, Executor.subscribe]

/-- A counter of the executors of a run agrees with a field of its ledger, for every scenario and
for all of them together. -/
structure Agrees (counter : Counters → Nat) (field : Tally → Nat) (run : Run) : Prop where
  each : ∀ (lane : Nat) (executor : Executor), run.executors[lane]? = some executor →
    run.ledger.total (some executor.plan.scenario.name) field = counter executor.counters
  all : run.ledger.total none field =
    (run.executors.map fun executor => counter executor.counters).sum

section Agreement

variable {counter : Counters → Nat} {field : Tally → Nat} {weight : Item → Nat} {run next : Run}

theorem agrees_start (twin : Twin counter field weight) (plans : List Plan)
    (thresholds : List Threshold) (cell : StopCell) :
    Agrees counter field (start plans thresholds cell) where
  each lane executor found := by
    rw [executors_start] at found
    obtain ⟨plan, -, rfl⟩ := Option.map_eq_some_iff.mp found
    exact twin.zero.symm
  all := by
    have none : ((start plans thresholds cell).executors.map
        fun executor => counter executor.counters).sum = 0 := by
      refine List.sum_eq_zero_iff_forall_eq_nat.mpr fun count member => ?_
      obtain ⟨executor, inside, rfl⟩ := List.mem_map.mp member
      obtain ⟨plan, -, rfl⟩ := List.mem_map.mp inside
      exact twin.zero
    exact none.symm

/-- One executor and the ledger count on by the same. -/
theorem Agrees.set (h : Agrees counter field run) (distinct : run.names.Nodup) {lane count : Nat}
    {executor changed : Executor} (found : run.executors[lane]? = some executor)
    (executors : next.executors = run.executors.set lane changed)
    (plan : changed.plan = executor.plan)
    (counted : counter changed.counters = counter executor.counters + count)
    (total : ∀ scope, next.ledger.total scope field = run.ledger.total scope field +
      if Ledger.inScope scope executor.plan.scenario.name then count else 0) :
    Agrees counter field next := by
  obtain ⟨inside, -⟩ := List.getElem?_eq_some_iff.mp found
  constructor
  · intro number other found'
    rw [executors] at found'
    rw [total]
    by_cases same : lane = number
    · subst same
      rw [List.getElem?_set_self inside] at found'
      cases found'
      rw [plan, counted, h.each lane executor found, if_pos (by simp [Ledger.inScope])]
    · rw [List.getElem?_set_ne same] at found'
      have apart : executor.plan.scenario.name ≠ other.plan.scenario.name := by
        intro equal
        have named : lane < run.names.length := by simpa [names] using inside
        exact same ((List.getElem?_inj named distinct).mp (by simp [names, found, found', equal]))
      have outside : Ledger.inScope (some other.plan.scenario.name) executor.plan.scenario.name =
          false := by
        simpa [Ledger.inScope] using Ne.symm apart
      rw [h.each number other found', outside]
      rfl
  · have sum := sum_map_set (fun executor => counter executor.counters) found changed
    rw [total, executors, h.all, if_pos (by rfl)]
    omega

/-- Whatever a step does, the accounts agree after it if they agreed before. -/
theorem agrees_apply (twin : Twin counter field weight) (h : Agrees counter field run)
    (distinct : run.names.Nodup) (event : RunEvent) : Agrees counter field (run.apply event) := by
  cases event with
  | step lane choice =>
    cases found : run.executors[lane]? with
    | none => simpa only [apply, found] using h
    | some executor =>
      have turn := Executor.perform_turn executor run.stop choice
      refine h.set distinct found ?_ turn.plan (twin.turn turn) fun scope => ?_
      · simp only [apply, found, executors_write]
        rfl
      · simp only [apply, found, ledger_write, Executor.perform_record]
        exact twin.total_record run.ledger scope _ _
  | task lane worker stimulus =>
    cases found : run.executors[lane]? with
    | none => simpa only [apply, found] using h
    | some executor =>
      obtain ⟨plan, -, -, -, counters⟩ :=
        (Executor.nudge_stimulate executor worker stimulus).frame
      refine h.set distinct found ?_ plan (by rw [counters, Nat.add_zero]) fun scope => ?_
      · simp only [apply, found]
        rfl
      · simp [apply, found, setExecutor]
  | stop reason => exact ⟨h.each, h.all⟩
  | progress => exact ⟨h.each, h.all⟩
  | abortCheck =>
    refine ⟨?_, ?_⟩
    · simpa only [apply, executors_abortCheck, ledger_abortCheck] using h.each
    · simpa only [apply, executors_abortCheck, ledger_abortCheck] using h.all

theorem agrees_applyAll (twin : Twin counter field weight) (h : Agrees counter field run)
    (distinct : run.names.Nodup) (events : List RunEvent) :
    Agrees counter field (run.applyAll events) := by
  induction events generalizing run with
  | nil => exact h
  | cons event events ih =>
    rw [applyAll_cons]
    refine ih (agrees_apply twin h distinct event) ?_
    have names := names_applyAll run [event]
    rw [applyAll_cons, applyAll_nil] at names
    rwa [names]

end Agreement

/-- What a run writes down: dropped arrivals, and what completed iterations came to. -/
theorem deed_of_record {plans : List Plan} {thresholds : List Threshold} {cell : StopCell}
    {events : List RunEvent} {record : Record}
    (written : record ∈ ((start plans thresholds cell).deeds events).filterMap
      (start plans thresholds cell).record?) :
    ∃ lane plan, plans[lane]? = some plan ∧ (record = .dropped plan.scenario.name ∨
      ∃ slot outcome,
        .completed slot outcome ∈ ofLane lane ((start plans thresholds cell).deeds events) ∧
        record = .iteration plan.scenario.name outcome) := by
  obtain ⟨⟨lane, deed⟩, done, written⟩ := List.mem_filterMap.mp written
  obtain ⟨executor, found, written⟩ := Option.bind_eq_some_iff.mp written
  rw [executors_start] at found
  obtain ⟨plan, planned, rfl⟩ := Option.map_eq_some_iff.mp found
  refine ⟨lane, plan, planned, ?_⟩
  cases deed with
  | started slot => cases written
  | lost slot => cases written
  | abandoned slots => cases written
  | dropped =>
    cases written
    exact Or.inl rfl
  | completed slot outcome =>
    cases written
    exact Or.inr ⟨slot, outcome, mem_ofLane.mpr done, rfl⟩

/-- What a run writes down of an iteration is what its scenario can yield. -/
theorem record_of_run {plans : List Plan} {thresholds : List Threshold} {cell : StopCell}
    {events : List RunEvent} {record : Record}
    (written : record ∈ ((start plans thresholds cell).deeds events).filterMap
      (start plans thresholds cell).record?) :
    ∃ plan ∈ plans, record = .dropped plan.scenario.name ∨
      ∃ outcome, plan.scenario.Yields (some outcome) ∧
        record = .iteration plan.scenario.name outcome := by
  obtain ⟨lane, plan, planned, record⟩ := deed_of_record written
  refine ⟨plan, List.mem_of_getElem? planned, record.imp_right ?_⟩
  rintro ⟨slot, outcome, completed, rfl⟩
  obtain ⟨executor, -, trailed⟩ :=
    lane_applyAll (Executor.trailed_applyAll plan cell) planned thresholds events
  exact ⟨outcome, trailed.completed slot outcome completed, rfl⟩

end Run

end Cadence
