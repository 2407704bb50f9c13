import Cadence.Proofs.Executor.Event
import Mathlib.Data.List.Induction

/-!
# What a step can do

`Turn executor deed next` tells, deed by deed, how a step changes an executor. `perform_turn` says
that every step is such a turn, so that an invariant of executors needs one case for each deed.
`nudge_stimulate` does the same for the iterations that go on, and `history_induction` puts both
together along a sequence of events.
-/

namespace Cadence

/-- The first element that passes a test, with what stands before and behind it. -/
theorem find?_eraseP {α : Type} {test : α → Bool} {items : List α} {item : α}
    (found : items.find? test = some item) :
    test item = true ∧ ∃ before after, items = before ++ item :: after ∧
      (∀ other ∈ before, test other = false) ∧ items.eraseP test = before ++ after := by
  obtain ⟨passes, before, after, rfl, fails⟩ := List.find?_eq_some_iff_append.mp found
  have fails : ∀ other ∈ before, test other = false := by simpa using fails
  refine ⟨passes, before, after, rfl, fails, ?_⟩
  rw [List.eraseP_append_right _ (by simpa using fails), List.eraseP_cons_of_pos passes]

namespace Executor

/-- How a step changes an executor. Whatever the deed, the executor ends only with nothing left in
flight. -/
inductive Turn (executor : Executor) : Option Deed → Executor → Prop where
  /-- Nothing happens to the iterations. -/
  | quiet (stage : Stage) (seen : Nat) (watching : Bool)
      (ending : stage = .ended → executor.stage = .ended ∨ executor.pending = []) :
      Turn executor none { executor with stage, seen, watching }
  | dropped (dispatching : executor.stage = .dispatching) (full : executor.free = []) :
      Turn executor (some .dropped) { executor with
        ticks := executor.ticks + 1
        counters := { executor.counters with dropped := executor.counters.dropped + 1 } }
  | started (dispatching : executor.stage = .dispatching) (slot : Slot) (rest : List Slot)
      (free : executor.free = slot :: rest) :
      Turn executor (some (.started slot)) { executor with
        ticks := executor.ticks + 1
        free := rest
        flights := ⟨slot, executor.counters.dispatched, .fresh⟩ :: executor.flights
        counters := { executor.counters with dispatched := executor.counters.dispatched + 1 } }
  | completed (before after : List Landing) (slot : Slot) (outcome : Outcome) (stage : Stage)
      (landed : executor.landings = before ++ ⟨slot, some outcome⟩ :: after)
      (ending : stage = .ended → executor.flights = [] ∧ before ++ after = []) :
      Turn executor (some (.completed slot outcome)) { executor with
        stage
        landings := before ++ after
        free := ⟨slot.worker, slot.iteration + 1⟩ :: executor.free
        counters := { executor.counters with completed := executor.counters.completed + 1 } }
  | lost (before after : List Landing) (slot : Slot) (stage : Stage)
      (landed : executor.landings = before ++ ⟨slot, none⟩ :: after)
      (ending : stage = .ended → executor.flights = [] ∧ before ++ after = []) :
      Turn executor (some (.lost slot)) { executor with
        stage
        landings := before ++ after
        counters := { executor.counters with abandoned := executor.counters.abandoned + 1 } }
  | abandoned (draining : executor.stage = .draining) :
      Turn executor (some (.abandoned executor.pending)) executor.giveUp

theorem inFlight_eq_length_pending (executor : Executor) :
    executor.inFlight = executor.pending.length := by
  simp [inFlight, pending]

theorem pending_eq_nil_iff (executor : Executor) :
    executor.pending = [] ↔ executor.flights = [] ∧ executor.landings = [] := by
  simp [pending]

/-- A join takes one iteration out of those in flight. -/
theorem pending_perm_of_landed {executor next : Executor} {before after : List Landing}
    {landing : Landing} (landed : executor.landings = before ++ landing :: after)
    (flights : next.flights = executor.flights) (landings : next.landings = before ++ after) :
    executor.pending.Perm (landing.slot :: next.pending) := by
  simp only [pending, landed, flights, landings, List.map_append, List.map_cons]
  rw [← List.append_assoc, ← List.append_assoc]
  exact List.perm_middle

/-- Settling the stage changes nothing else, and ends only what has nothing left in flight. -/
theorem settleStage_cases (executor : Executor) :
    executor.settleStage = executor ∨
      executor.stage = .draining ∧ executor.pending = [] ∧
        executor.settleStage = { executor with stage := .ended } := by
  unfold settleStage
  split
  next idle =>
    refine Or.inr ⟨idle.1, ?_, rfl⟩
    rw [← List.length_eq_zero_iff, ← inFlight_eq_length_pending]
    exact idle.2
  next => exact Or.inl rfl

theorem settleStage_eq (executor : Executor) :
    ∃ stage, executor.settleStage = { executor with stage } ∧
      (stage = .ended → executor.stage = .ended ∨ executor.pending = []) := by
  rcases settleStage_cases executor with same | ⟨-, empty, ended⟩
  · exact ⟨executor.stage, same, Or.inl⟩
  · exact ⟨.ended, ended, fun _ => Or.inr empty⟩

theorem quiet_leave (executor : Executor) : Turn executor none executor.leave := by
  obtain ⟨stage, same, ending⟩ := settleStage_eq { executor with stage := .draining }
  unfold leave
  rw [same]
  exact .quiet stage executor.seen executor.watching fun ended => Or.inr
    ((ending ended).resolve_left (by simp))

theorem quiet_look (executor : Executor) (cell : StopCell)
    (dispatching : executor.stage = .dispatching) : Turn executor none (executor.look cell) := by
  unfold look
  split
  · exact .quiet executor.stage executor.seen false Or.inl
  · dsimp only
    split
    · obtain ⟨stage, same, ending⟩ :=
        settleStage_eq { executor with seen := cell.version, stage := .draining }
      unfold leave
      rw [same]
      exact .quiet stage cell.version executor.watching fun ended => Or.inr
        ((ending ended).resolve_left (by simp))
    · exact .quiet executor.stage cell.version executor.watching fun ended => by
        rw [dispatching] at ended
        cases ended

theorem turn_arrive (executor : Executor) (dispatching : executor.stage = .dispatching) :
    Turn executor (executor.deed? .tick) executor.arrive.1 := by
  unfold arrive
  cases free : executor.free with
  | nil =>
    have deed : executor.deed? .tick = some .dropped := by simp [deed?, dispatching, free]
    rw [deed]
    simpa [free] using Turn.dropped dispatching free
  | cons slot rest =>
    have deed : executor.deed? .tick = some (.started slot) := by
      simp [deed?, dispatching, free]
    rw [deed]
    exact .started dispatching slot rest free

theorem deed?_join (executor : Executor) (worker : Nat)
    (working : executor.stage = .dispatching ∨ executor.stage = .draining) :
    executor.deed? (.join worker) =
      (executor.landings.find? fun landing => landing.slot.worker == worker).map Landing.deed := by
  unfold deed?
  rcases working with stage | stage <;> rw [stage]

theorem turn_join (executor : Executor) (worker : Nat)
    (working : executor.stage = .dispatching ∨ executor.stage = .draining) :
    Turn executor (executor.deed? (.join worker)) (executor.join worker).1 := by
  have running : executor.stage ≠ .ended := by
    rcases working with stage | stage <;> simp [stage]
  rw [deed?_join executor worker working]
  unfold join
  cases found : executor.landings.find? fun landing => landing.slot.worker == worker with
  | none => exact .quiet executor.stage executor.seen executor.watching Or.inl
  | some landing =>
    obtain ⟨same, before, after, landed, -, erased⟩ := find?_eraseP found
    obtain rfl : landing.slot.worker = worker := by simpa using same
    obtain ⟨slot, outcome⟩ := landing
    cases outcome with
    | some outcome =>
      obtain ⟨stage, settled, ending⟩ := settleStage_eq { executor with
        landings := before ++ after
        free := ⟨slot.worker, slot.iteration + 1⟩ :: executor.free
        counters := { executor.counters with completed := executor.counters.completed + 1 } }
      simp only [erased, settled, Option.map_some, Landing.deed]
      exact .completed before after slot outcome stage landed fun ended =>
        (pending_eq_nil_iff _).mp ((ending ended).resolve_left running)
    | none =>
      obtain ⟨stage, settled, ending⟩ := settleStage_eq { executor with
        landings := before ++ after
        counters := { executor.counters with abandoned := executor.counters.abandoned + 1 } }
      simp only [erased, settled, Option.map_some, Landing.deed]
      exact .lost before after slot stage landed fun ended =>
        (pending_eq_nil_iff _).mp ((ending ended).resolve_left running)

/-- Every step is a turn. -/
theorem perform_turn (executor : Executor) (cell : StopCell) (choice : Choice) :
    Turn executor (executor.deed? choice) (executor.perform cell choice).1 := by
  have unchanged : Turn executor none executor :=
    .quiet executor.stage executor.seen executor.watching Or.inl
  unfold perform
  split
  case h_1 idle =>
    have deed : executor.deed? .enter = none := by simp [deed?, idle]
    rw [deed]
    dsimp only
    split
    · exact quiet_leave executor
    · exact .quiet .dispatching executor.seen executor.watching (by simp)
  case h_2 idle =>
    have deed : executor.deed? .fail = none := by simp [deed?, idle]
    rw [deed]
    exact .quiet .failed executor.seen executor.watching (by simp)
  case h_3 dispatching =>
    have deed : executor.deed? .deadline = none := by simp [deed?, dispatching]
    rw [deed]
    exact quiet_leave executor
  case h_4 dispatching =>
    have deed : executor.deed? .look = none := by simp [deed?, dispatching]
    rw [deed]
    exact quiet_look executor cell dispatching
  case h_5 worker dispatching => exact turn_join executor worker (Or.inl dispatching)
  case h_6 worker draining => exact turn_join executor worker (Or.inr draining)
  case h_7 dispatching => exact turn_arrive executor dispatching
  case h_8 draining =>
    have deed : executor.deed? .graceOver = some (.abandoned executor.pending) := by
      simp [deed?, draining]
    rw [deed]
    exact .abandoned draining
  case h_9 choice _ _ _ _ _ _ _ _ _ _ =>
    have deed : executor.deed? choice = none := by
      unfold deed?
      split <;> simp_all
    rw [deed]
    exact unchanged

theorem arrive_record (executor : Executor) (dispatching : executor.stage = .dispatching) :
    executor.arrive.2 = (executor.deed? .tick).bind (Deed.record? executor.plan.scenario.name) := by
  unfold arrive
  cases free : executor.free with
  | nil => simp [deed?, dispatching, free, Deed.record?]
  | cons slot rest => simp [deed?, dispatching, free, Deed.record?]

theorem join_record (executor : Executor) (worker : Nat)
    (working : executor.stage = .dispatching ∨ executor.stage = .draining) :
    (executor.join worker).2 =
      (executor.deed? (.join worker)).bind (Deed.record? executor.plan.scenario.name) := by
  rw [deed?_join executor worker working]
  unfold join
  cases executor.landings.find? fun landing => landing.slot.worker == worker with
  | none => rfl
  | some landing =>
    obtain ⟨slot, outcome⟩ := landing
    cases outcome <;> rfl

/-- What a step says is to be written is what its deed records. -/
theorem perform_record (executor : Executor) (cell : StopCell) (choice : Choice) :
    (executor.perform cell choice).2 =
      (executor.deed? choice).bind (Deed.record? executor.plan.scenario.name) := by
  unfold perform
  split
  case h_1 stage => simp [deed?, stage]
  case h_2 stage => simp [deed?, stage]
  case h_3 stage => simp [deed?, stage]
  case h_4 stage => simp [deed?, stage]
  case h_5 worker dispatching => exact join_record executor worker (Or.inl dispatching)
  case h_6 worker draining => exact join_record executor worker (Or.inr draining)
  case h_7 dispatching => exact arrive_record executor dispatching
  case h_8 stage => simp [deed?, stage, Deed.record?]
  case h_9 choice _ _ _ _ _ _ _ _ _ _ =>
    have deed : executor.deed? choice = none := by
      unfold deed?
      split <;> simp_all
    rw [deed]
    rfl

/-- How an executor changes when one of its iterations goes on. -/
inductive Nudge (executor : Executor) (worker : Nat) (stimulus : Stimulus) :
    Option Leg → Executor → Prop where
  /-- There is no such iteration, or it does not wait for that. -/
  | idle : Nudge executor worker stimulus none executor
  | goesOn (flight : Flight) (phase : Phase) (found : executor.flightOf? worker = some flight)
      (step : flight.phase.step? executor.plan.scenario (executor.context flight) stimulus =
        some (.goesOn phase)) :
      Nudge executor worker stimulus (some ⟨flight.slot, stimulus, phase.request?⟩)
        { executor with
          flights := setPhase worker phase executor.flights
          detached := setPhase worker phase executor.detached }
  | landed (before after : List Flight) (flight : Flight) (outcome : Option Outcome)
      (found : executor.flightOf? worker = some flight)
      (flying : executor.flights = before ++ flight :: after)
      (step : flight.phase.step? executor.plan.scenario (executor.context flight) stimulus =
        some (.ends outcome)) :
      Nudge executor worker stimulus (some ⟨flight.slot, stimulus, none⟩)
        { executor with
          flights := before ++ after
          detached := executor.detached.eraseP fun flight => flight.slot.worker == worker
          landings := executor.landings ++ [⟨flight.slot, outcome⟩] }
  /-- The end of an abandoned iteration is not seen. -/
  | vanished (before after : List Flight) (flight : Flight) (outcome : Option Outcome)
      (found : executor.flightOf? worker = some flight)
      (flying : executor.detached = before ++ flight :: after)
      (step : flight.phase.step? executor.plan.scenario (executor.context flight) stimulus =
        some (.ends outcome)) :
      Nudge executor worker stimulus (some ⟨flight.slot, stimulus, none⟩)
        { executor with detached := before ++ after }

/-- The iteration of a worker is looked for among those in flight first. -/
theorem flightOf?_eq (executor : Executor) (worker : Nat) :
    executor.flightOf? worker =
      (executor.flights.find? fun flight => flight.slot.worker == worker).or
        (executor.detached.find? fun flight => flight.slot.worker == worker) := by
  unfold flightOf?
  rw [List.find?_append]

/-- Whenever an iteration goes on, its executor is nudged. -/
theorem nudge_stimulate (executor : Executor) (worker : Nat) (stimulus : Stimulus) :
    Nudge executor worker stimulus (executor.leg? worker stimulus)
      (executor.stimulate worker stimulus).1 := by
  unfold leg? stimulate
  cases found : executor.flightOf? worker with
  | none => exact .idle
  | some flight =>
    simp only [Option.bind_eq_bind, Option.bind_some]
    cases step : flight.phase.step? executor.plan.scenario (executor.context flight) stimulus with
    | none => exact .idle
    | some progress =>
      cases progress with
      | goesOn phase => exact .goesOn flight phase found step
      | ends outcome =>
        have either := found
        rw [flightOf?_eq] at either
        cases flying : executor.flights.find? fun flight => flight.slot.worker == worker with
        | some first =>
          obtain rfl : first = flight := by simpa [flying] using either
          obtain ⟨same, before, after, parts, -, erased⟩ := find?_eraseP flying
          have observed :
              (executor.flights.any fun flight => flight.slot.worker == worker) = true :=
            List.any_eq_true.mpr ⟨first, by simp [parts], same⟩
          simp only [erased, observed, if_true]
          exact .landed before after first outcome found parts step
        | none =>
          have rest : executor.detached.find? (fun flight => flight.slot.worker == worker) =
              some flight := by simpa [flying] using either
          obtain ⟨-, before, after, parts, -, erased⟩ := find?_eraseP rest
          have absent : ∀ other ∈ executor.flights, ¬(other.slot.worker == worker) = true :=
            List.find?_eq_none.mp flying
          have unobserved :
              (executor.flights.any fun flight => flight.slot.worker == worker) = false := by
            simpa using absent
          simp only [erased, unobserved, List.eraseP_of_forall_not absent, Bool.false_eq_true,
            if_false]
          exact .vanished before after flight outcome found parts step

/-- The request made when an iteration goes on is that of its leg. -/
theorem stimulate_request (executor : Executor) (worker : Nat) (stimulus : Stimulus) :
    (executor.stimulate worker stimulus).2 = (executor.leg? worker stimulus).bind (·.request) := by
  unfold leg? stimulate
  cases executor.flightOf? worker with
  | none => rfl
  | some flight =>
    simp only [Option.bind_eq_bind, Option.bind_some]
    cases flight.phase.step? executor.plan.scenario (executor.context flight) stimulus with
    | none => rfl
    | some progress => cases progress <;> rfl

/-- The plan of an executor stays. -/
theorem Turn.plan {executor next : Executor} {deed : Option Deed} (turn : Turn executor deed next) :
    next.plan = executor.plan := by
  cases turn <;> rfl

section Nudges

variable {executor next : Executor} {worker : Nat} {stimulus : Stimulus} {leg : Option Leg}

@[simp] theorem map_slot_setPhase (worker : Nat) (phase : Phase) (flights : List Flight) :
    (setPhase worker phase flights).map (·.slot) = flights.map (·.slot) := by
  unfold setPhase
  rw [List.map_map]
  apply List.map_congr_left
  intro flight _
  simp only [Function.comp]
  split <;> rfl

/-- Iterations go on by themselves: the executor neither joins nor starts any meanwhile. -/
theorem Nudge.frame (h : Nudge executor worker stimulus leg next) :
    next.plan = executor.plan ∧ next.stage = executor.stage ∧ next.ticks = executor.ticks ∧
      next.free = executor.free ∧ next.counters = executor.counters := by
  cases h <;> exact ⟨rfl, rfl, rfl, rfl, rfl⟩

/-- An iteration that ends stays in flight until it is joined. -/
theorem Nudge.pending_perm (h : Nudge executor worker stimulus leg next) :
    next.pending.Perm executor.pending := by
  cases h with
  | idle => exact .refl _
  | goesOn flight phase found step => simp [pending]
  | landed before after flight outcome found flying step =>
    simp only [pending, flying, List.map_append, List.map_cons, List.map_nil, List.append_assoc,
      List.cons_append]
    refine .append_left _ ?_
    rw [← List.append_assoc]
    exact List.perm_append_singleton _ _
  | vanished before after flight outcome found flying step => exact .refl _

theorem Nudge.detached_sublist (h : Nudge executor worker stimulus leg next) :
    (next.detached.map (·.slot)).Sublist (executor.detached.map (·.slot)) := by
  cases h with
  | idle => exact .refl _
  | goesOn flight phase found step => simp
  | landed before after flight outcome found flying step =>
    exact (List.eraseP_sublist).map _
  | vanished before after flight outcome found flying step =>
    rw [flying]
    exact ((List.sublist_cons_self _ _).append_left _).map _

end Nudges

/-- What holds of a new executor and is kept by every turn and every nudge holds after every
sequence of events, with the deeds and the legs of that sequence. -/
theorem history_induction {motive : Executor → List Deed → List Leg → Prop} {start : Executor}
    (init : motive start [] [])
    (turn : ∀ {executor deeds legs deed next}, motive executor deeds legs →
      Turn executor deed next → motive next (deeds ++ deed.toList) legs)
    (nudge : ∀ {executor deeds legs worker stimulus leg next}, motive executor deeds legs →
      Nudge executor worker stimulus leg next → motive next deeds (legs ++ leg.toList))
    (events : List LaneEvent) :
    motive (start.applyAll events) (start.deeds events) (start.legs events) := by
  induction events using List.reverseRecOn with
  | nil => exact init
  | append_singleton events event ih =>
    rw [applyAll_concat, deeds_concat, legs_concat]
    cases event with
    | step cell choice =>
      simpa [apply, eventDeed?, eventLeg?] using turn ih (perform_turn _ cell choice)
    | task worker stimulus =>
      simpa [apply, eventDeed?, eventLeg?] using nudge ih (nudge_stimulate _ worker stimulus)

theorem plan_apply (executor : Executor) (event : LaneEvent) :
    (executor.apply event).plan = executor.plan := by
  cases event with
  | step cell choice => exact (perform_turn executor cell choice).plan
  | task worker stimulus => exact (nudge_stimulate executor worker stimulus).frame.1

@[simp] theorem plan_applyAll (executor : Executor) (events : List LaneEvent) :
    (executor.applyAll events).plan = executor.plan := by
  induction events generalizing executor with
  | nil => rfl
  | cons event events ih => rw [applyAll_cons, ih, plan_apply]

end Executor

end Cadence
