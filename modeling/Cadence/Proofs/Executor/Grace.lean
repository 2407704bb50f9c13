import Cadence.Proofs.Executor.Accounts
import Cadence.Proofs.Executor.Stage
import Cadence.Proofs.Executor.Trail

/-!
# The end of the grace period

An iteration returns when its body has come to an outcome. The outcome is handed on only after its
worker has idled for the settle time of the scenario, and until then the executor does not tell the
iteration from one whose body goes on. Hence what has returned is completed when the grace period
is over, unless its worker still idles: then it is abandoned with the others, and its outcome is
lost. Without a settle time nothing that has returned is abandoned.
-/

namespace Cadence

/-- The outcome that a body has come to. -/
def Body.outcome? : Body → Option Outcome
  | .done outcome => some outcome
  | .broken | .pause .. | .ask .. => none

namespace Phase

/-- What is left of the body of an iteration when it goes on; nothing if the body does not wait for
that stimulus. -/
def rest? (scenario : Scenario) (context : IterationContext) : Phase → Stimulus → Option Body
  | .fresh, .begin millis => some (scenario.body context millis)
  | .running (.ask _ next), .answer reply => some (next reply)
  | .running (.pause _ next), .wake => some next
  | _, _ => none

/-- The outcome to which the body has come, if it has. -/
def outcome? : Phase → Option Outcome
  | .settling outcome => some outcome
  | .fresh | .running _ => none

def Progress.outcome? : Progress → Option Outcome
  | .goesOn phase => phase.outcome?
  | .ends outcome => outcome

variable {scenario : Scenario} {context : IterationContext} {phase : Phase} {stimulus : Stimulus}
  {progress : Progress}

@[simp] theorem Progress.outcome?_ofBody (settle : Duration) (body : Body) :
    (ofBody settle body).outcome? = body.outcome? := by
  cases body with
  | done outcome =>
    rw [ofBody]
    split <;> rfl
  | broken => rfl
  | pause time next => rfl
  | ask request next => rfl

/-- An iteration goes on with its body, or has idled enough, or breaks off before its body has
returned. -/
theorem step?_cases (step : phase.step? scenario context stimulus = some progress) :
    (∃ body, phase.rest? scenario context stimulus = some body ∧ phase.outcome? = none ∧
        progress = .ofBody scenario.settle body) ∨
      phase.rest? scenario context stimulus = none ∧ progress = .ends phase.outcome? := by
  unfold step? at step
  split at step
  case h_1 millis => exact Or.inl ⟨_, rfl, rfl, (Option.some.inj step).symm⟩
  case h_2 request next reply => exact Or.inl ⟨_, rfl, rfl, (Option.some.inj step).symm⟩
  case h_3 time next => exact Or.inl ⟨_, rfl, rfl, (Option.some.inj step).symm⟩
  case h_4 outcome => exact Or.inr ⟨rfl, (Option.some.inj step).symm⟩
  case h_5 => exact Or.inr ⟨rfl, (Option.some.inj step).symm⟩
  case h_6 body =>
    refine Or.inr ⟨?_, (Option.some.inj step).symm⟩
    cases body <;> rfl
  case h_7 => cases step

/-- An iteration gets its outcome when its body returns, and keeps it. -/
theorem outcome?_of_step? (step : phase.step? scenario context stimulus = some progress) :
    progress.outcome?.toList =
      ((phase.rest? scenario context stimulus).bind Body.outcome?).toList ++
        phase.outcome?.toList := by
  rcases step?_cases step with ⟨body, rest, none, rfl⟩ | ⟨rest, rfl⟩
  · simp [rest, none]
  · simp [rest, Progress.outcome?]

/-- Only what an iteration waits for takes its body further. -/
theorem rest?_of_step?_eq_none (step : phase.step? scenario context stimulus = none) :
    phase.rest? scenario context stimulus = none := by
  unfold rest?
  split
  case h_1 => cases step
  case h_2 => cases step
  case h_3 => cases step
  case h_4 => rfl

/-- Without a settle time no worker idles. -/
theorem outcome?_of_isZero (h : scenario.settle.isZero = true) {next : Phase}
    (step : phase.step? scenario context stimulus = some (.goesOn next)) :
    next.outcome? = none := by
  rcases step?_cases step with ⟨body, -, -, same⟩ | ⟨-, same⟩
  · cases body with
    | done outcome =>
      rw [Progress.ofBody, if_pos h] at same
      cases same
    | broken => cases same
    | pause time rest =>
      cases same
      rfl
    | ask request rest =>
      cases same
      rfl
  · cases same

end Phase

/-- Without a settle time a trail that has not ended has not come to an outcome. -/
theorem Trail.outcome?_of_isZero {scenario : Scenario} {context : IterationContext}
    (h : scenario.settle.isZero = true) {phase last : Phase}
    {moves : List (Stimulus × Option Request)}
    (trail : Trail scenario context phase moves (.goesOn last)) (none : phase.outcome? = none) :
    last.outcome? = .none := by
  generalize reached : Phase.Progress.goesOn last = progress at trail
  induction trail with
  | here phase =>
    cases reached
    exact none
  | ends step => cases reached
  | goesOn step trail ih => exact ih (Phase.outcome?_of_isZero h step) reached

/-- What the first element is mapped to stands in front. -/
theorem filterMap_cons_eq {α β : Type} (f : α → Option β) (first : α) (rest : List α) :
    (first :: rest).filterMap f = (f first).toList ++ rest.filterMap f := by
  cases image : f first <;> simp [image]

/-- What an iteration that goes on has come to, if its body has returned. -/
def Flight.result? (flight : Flight) : Option (Slot × Outcome) :=
  flight.phase.outcome?.map fun outcome => (flight.slot, outcome)

def Landing.result? (landing : Landing) : Option (Slot × Outcome) :=
  landing.outcome.map fun outcome => (landing.slot, outcome)

def Deed.result? : Deed → Option (Slot × Outcome)
  | .completed slot outcome => some (slot, outcome)
  | .started _ | .dropped | .lost _ | .abandoned _ => none

/-- What the iterations that were joined with an outcome have come to, in order. -/
def results (deeds : List Deed) : List (Slot × Outcome) := deeds.filterMap Deed.result?

@[simp] theorem results_append (first second : List Deed) :
    results (first ++ second) = results first ++ results second := List.filterMap_append

@[simp] theorem results_singleton (deed : Deed) : results [deed] = deed.result?.toList := by
  cases deed <;> rfl

namespace Executor

/-- The iteration whose body returns with an event, and what it has come to. -/
def return? (executor : Executor) : LaneEvent → Option (Slot × Outcome)
  | .step _ _ => none
  | .task worker stimulus => do
    let flight ← executor.flightOf? worker
    let body ← flight.phase.rest? executor.plan.scenario (executor.context flight) stimulus
    let outcome ← body.outcome?
    return (flight.slot, outcome)

/-- What iterations have come to along a sequence of events, in the order in which they return. -/
def returns (executor : Executor) (events : List LaneEvent) : List (Slot × Outcome) :=
  executor.history return? events

theorem return?_task {executor : Executor} {worker : Nat} {flight : Flight}
    (found : executor.flightOf? worker = some flight) (stimulus : Stimulus) :
    executor.return? (.task worker stimulus) =
      ((flight.phase.rest? executor.plan.scenario (executor.context flight) stimulus).bind
        Body.outcome?).map fun outcome => (flight.slot, outcome) := by
  simp only [return?, found, Option.bind_eq_bind, Option.bind_some]
  cases flight.phase.rest? executor.plan.scenario (executor.context flight) stimulus with
  | none => rfl
  | some body => cases body <;> rfl

theorem returns_concat (executor : Executor) (events : List LaneEvent) (event : LaneEvent) :
    executor.returns (events ++ [event]) =
      executor.returns events ++ ((executor.applyAll events).return? event).toList :=
  history_concat return? executor events event

/-- What iterations in flight have come to, whether their workers idle or they wait to be joined. -/
def held (executor : Executor) : List (Slot × Outcome) :=
  executor.flights.filterMap Flight.result? ++ executor.landings.filterMap Landing.result?

/-- Until the grace period is over, what iterations have come to has been joined or is held. -/
def Kept (executor : Executor) (deeds : List Deed) (returns : List (Slot × Outcome)) : Prop :=
  (∀ slots, .abandoned slots ∉ deeds) →
    executor.detached = [] ∧ returns.Perm (results deeds ++ executor.held)

section Kept

variable {plan : Plan} {executor next : Executor} {deeds : List Deed}
  {returns : List (Slot × Outcome)}

theorem kept_subscribe (plan : Plan) (cell : StopCell) : Kept (subscribe plan cell) [] [] :=
  fun _ => ⟨rfl, .refl _⟩

/-- No step loses what an iteration has come to, but the one that abandons all. -/
theorem Kept.turn (h : Kept executor deeds returns) {deed : Option Deed}
    (turn : Turn executor deed next) : Kept next (deeds ++ deed.toList) returns := by
  intro going
  obtain ⟨detached, perm⟩ := h fun slots done => going slots (List.mem_append_left _ done)
  cases turn with
  | quiet stage seen watching ending => exact ⟨detached, by simpa [held] using perm⟩
  | dropped dispatching full => exact ⟨detached, by simpa [held, Deed.result?] using perm⟩
  | started dispatching slot rest free =>
    refine ⟨detached, ?_⟩
    simpa [held, filterMap_cons_eq, Deed.result?, Flight.result?, Phase.outcome?] using perm
  | completed before after slot outcome stage landed ending =>
    refine ⟨detached, perm.trans ?_⟩
    simp only [held, landed, results_append, List.filterMap_append, filterMap_cons_eq,
      Option.toList_some, results_singleton, Deed.result?, Landing.result?, Option.map_some]
    rw [List.append_assoc, ← List.append_assoc (List.filterMap _ executor.flights)]
    exact (List.perm_middle.append_left _).trans (by simp)
  | lost before after slot stage landed ending =>
    refine ⟨detached, ?_⟩
    simpa [held, landed, filterMap_cons_eq, Deed.result?, Landing.result?] using perm
  | abandoned draining => exact absurd (by simp) (going executor.pending)

/-- What returns does so out of the iteration that goes on. -/
theorem toList_return? {worker : Nat} {stimulus : Stimulus} {flight : Flight}
    {progress : Phase.Progress} (found : executor.flightOf? worker = some flight)
    (step : flight.phase.step? executor.plan.scenario (executor.context flight) stimulus =
      some progress) :
    (progress.outcome?.map fun outcome => (flight.slot, outcome)).toList =
      (executor.return? (.task worker stimulus)).toList ++ flight.result?.toList := by
  have kept := congrArg (List.map fun outcome => (flight.slot, outcome))
    (Phase.outcome?_of_step? step)
  rw [List.map_append, ← Option.toList_map, ← Option.toList_map, ← Option.toList_map] at kept
  rw [kept, return?_task found]
  rfl

theorem return?_of_leg?_eq_none {worker : Nat} {stimulus : Stimulus}
    (idle : executor.leg? worker stimulus = none) :
    executor.return? (.task worker stimulus) = none := by
  cases found : executor.flightOf? worker with
  | none => simp [return?, found]
  | some flight =>
    rw [return?_task found]
    cases step : flight.phase.step? executor.plan.scenario (executor.context flight) stimulus with
    | none =>
      rw [Phase.rest?_of_step?_eq_none step]
      rfl
    | some progress => simp [leg?, found, step] at idle

/-- Only the iteration of that worker gets into another phase. -/
theorem Numbered.setPhase_eq (h : Numbered plan executor deeds) {before after : List Flight}
    {flight : Flight} (flying : executor.flights = before ++ flight :: after) (phase : Phase) :
    setPhase flight.slot.worker phase executor.flights =
      before ++ { flight with phase } :: after := by
  have distinct : ((flight :: (before ++ after)).map (·.slot.worker)).Nodup := by
    have all := h.flights_nodup
    rw [flying, List.map_append] at all
    exact (List.perm_middle.map _).nodup_iff.mp all.of_append_left
  have apart : ∀ other ∈ before ++ after, other.slot.worker ≠ flight.slot.worker := by
    intro other member same
    refine (List.nodup_cons.mp distinct).1 ?_
    exact List.mem_map.mpr ⟨other, member, same⟩
  have others (flights : List Flight) (inside : flights ⊆ before ++ after) :
      setPhase flight.slot.worker phase flights = flights := by
    refine (List.map_congr_left fun other member => ?_).trans (List.map_id _)
    exact if_neg (apart other (inside member))
  rw [flying]
  calc setPhase flight.slot.worker phase (before ++ flight :: after)
      = setPhase flight.slot.worker phase before ++ { flight with phase } ::
          setPhase flight.slot.worker phase after := by simp [setPhase]
    _ = before ++ { flight with phase } :: after := by
      rw [others before (by simp), others after (by simp)]

/-- What an iteration in flight has come to is held for it, whatever the others have come to. -/
theorem held_perm_of_flying {before after : List Flight} {flight : Flight}
    (flying : executor.flights = before ++ flight :: after) :
    executor.held.Perm (flight.result?.toList ++ ((before ++ after).filterMap Flight.result? ++
      executor.landings.filterMap Landing.result?)) := by
  simp only [held, flying, List.filterMap_append, filterMap_cons_eq, ← List.append_assoc]
  exact (List.perm_append_comm.append_right _).append_right _

/-- What is held for an iteration changes by what it returns. -/
theorem perm_of_returned {done returns held later rest old new returned : List (Slot × Outcome)}
    (kept : returns.Perm (done ++ held)) (before : held.Perm (old ++ rest))
    (after : later.Perm (new ++ rest)) (same : new = returned ++ old) :
    (returns ++ returned).Perm (done ++ later) :=
  calc (returns ++ returned).Perm (done ++ held ++ returned) := kept.append_right _
    _ = done ++ (held ++ returned) := List.append_assoc ..
    List.Perm _ (done ++ (returned ++ held)) := List.perm_append_comm.append_left _
    List.Perm _ (done ++ (returned ++ (old ++ rest))) := (before.append_left _).append_left _
    _ = done ++ (new ++ rest) := by rw [same, List.append_assoc]
    List.Perm _ (done ++ later) := after.symm.append_left _

/-- What an iteration comes to when it goes on is held from then on. -/
theorem Kept.task (h : Kept executor deeds returns) (numbered : Numbered plan executor deeds)
    (worker : Nat) (stimulus : Stimulus) :
    Kept (executor.stimulate worker stimulus).1 deeds
      (returns ++ (executor.return? (.task worker stimulus)).toList) := by
  intro going
  obtain ⟨detached, perm⟩ := h going
  have nudge := nudge_stimulate executor worker stimulus
  generalize legEq : executor.leg? worker stimulus = leg at nudge
  generalize (executor.stimulate worker stimulus).1 = next at nudge ⊢
  cases nudge with
  | idle =>
    rw [return?_of_leg?_eq_none legEq]
    simpa using ⟨detached, perm⟩
  | goesOn flight phase found step =>
    have own : flight.slot.worker = worker := by simpa using List.find?_some found
    have flying : flight ∈ executor.flights := by
      simpa [detached] using List.mem_of_find?_eq_some found
    obtain ⟨before, after, parts⟩ := List.append_of_mem flying
    have moved := numbered.setPhase_eq parts phase
    rw [own] at moved
    refine ⟨by simp [detached, setPhase], ?_⟩
    exact perm_of_returned perm (held_perm_of_flying parts) (held_perm_of_flying moved)
      (toList_return? found step)
  | landed before after flight outcome found flying step =>
    refine ⟨by simp [detached], ?_⟩
    refine perm_of_returned perm (held_perm_of_flying flying) ?_ (toList_return? found step)
    have landings : List.filterMap Landing.result? (executor.landings ++ [⟨flight.slot, outcome⟩]) =
        executor.landings.filterMap Landing.result? ++
          (outcome.map fun outcome => (flight.slot, outcome)).toList := by
      rw [List.filterMap_append, filterMap_cons_eq, List.filterMap_nil, List.append_nil]
      rfl
    dsimp only [held]
    rw [landings, ← List.append_assoc]
    exact List.perm_append_comm
  | vanished before after flight outcome found flying step =>
    rw [detached] at flying
    exact absurd flying.symm (by simp)

theorem kept_applyAll (plan : Plan) (cell : StopCell) (events : List LaneEvent) :
    Kept ((subscribe plan cell).applyAll events) ((subscribe plan cell).deeds events)
      ((subscribe plan cell).returns events) := by
  induction events using List.reverseRecOn with
  | nil => exact kept_subscribe plan cell
  | append_singleton events event ih =>
    rw [applyAll_concat, deeds_concat, returns_concat]
    cases event with
    | step now choice =>
      simpa [apply, eventDeed?, return?] using ih.turn (perform_turn _ now choice)
    | task worker stimulus =>
      simpa [apply, eventDeed?] using ih.task (numbered_applyAll plan cell events) worker stimulus

end Kept

/-- Without a settle time no iteration that goes on has returned. -/
theorem Trailed.results_of_isZero {plan : Plan} {executor : Executor} {deeds : List Deed}
    {legs : List Leg} (h : Trailed plan executor deeds legs)
    (unsettled : plan.scenario.settle.isZero = true) :
    executor.flights.filterMap Flight.result? = [] := by
  refine List.filterMap_eq_nil_iff.mpr fun flight flying => ?_
  have trail := h.flying flight (List.mem_append_left _ flying)
  rw [Flight.result?, trail.outcome?_of_isZero unsettled rfl]
  rfl

/-- The end of the grace period is looked at when nothing waits to be joined. -/
theorem draining_of_graceOver {executor : Executor} {now : StopCell} {due : Due}
    (expired : executor.choose now due = some .graceOver) :
    executor.stage = .draining ∧ executor.landings = [] := by
  unfold choose at expired
  cases stage : executor.stage with
  | idle =>
    simp only [stage] at expired
    split at expired <;> cases expired
  | dispatching =>
    simp only [stage] at expired
    repeat' split at expired
    all_goals cases expired
  | draining =>
    cases landings : executor.landings with
    | nil => exact ⟨rfl, rfl⟩
    | cons landing rest => simp [stage, landings] at expired
  | ended => simp [stage] at expired
  | failed => simp [stage] at expired

/-- What becomes of the iterations that have returned when the grace period is over. Each of them
has been completed with its outcome, once, or its worker idles. What is in flight then is abandoned
as a whole, whether its worker idles or its body goes on, and nothing is written for it any more,
whatever happens later. Without a settle time all that has returned is completed. -/
theorem completed_unless_settling (plan : Plan) (cell : StopCell) (events : List LaneEvent)
    (now : StopCell) (due : Due) :
    let start := subscribe plan cell
    let executor := start.applyAll events
    let deeds := start.deeds events
    executor.choose now due = some .graceOver →
    (start.returns events).Perm (results deeds ++ executor.flights.filterMap Flight.result?) ∧
    (plan.scenario.settle.isZero = true → (start.returns events).Perm (results deeds)) ∧
    (executor.perform now .graceOver).2 = none ∧
    (∀ later, start.deeds (events ++ .step now .graceOver :: later) =
      deeds ++ [.abandoned (executor.flights.map (·.slot))]) ∧
    ∀ flight ∈ executor.flights, flight.slot ∉ completions deeds := by
  intro start executor deeds expired
  obtain ⟨draining, landings⟩ := draining_of_graceOver expired
  have returned : (start.returns events).Perm
      (results deeds ++ executor.flights.filterMap Flight.result?) := by
    have kept : (start.returns events).Perm (results deeds ++ executor.held) :=
      (kept_applyAll plan cell events (not_abandoned_of_ne_ended fun ended =>
        nomatch draining.symm.trans ended)).2
    rw [held, landings] at kept
    simpa using kept
  have pending : executor.pending = executor.flights.map (·.slot) := by
    simp [Executor.pending, landings]
  have deed : executor.deed? .graceOver = some (.abandoned (executor.flights.map (·.slot))) := by
    rw [← pending]
    simp [deed?, draining]
  refine ⟨returned, fun unsettled => ?_, ?_, fun later => ?_, fun flight flying => ?_⟩
  · rw [show List.filterMap _ executor.flights = [] from
      (trailed_applyAll plan cell events).results_of_isZero unsettled, List.append_nil] at returned
    exact returned
  · rw [perform_record, deed]
    rfl
  · have ended : (executor.apply (.step now .graceOver)).stage = .ended := by
      have turn := perform_turn executor now .graceOver
      rw [deed] at turn
      exact turn.ended_of_abandoned
    calc start.deeds (events ++ .step now .graceOver :: later)
        = deeds ++ executor.deeds (.step now .graceOver :: later) := history_append ..
      _ = deeds ++ ((executor.deed? .graceOver).toList ++
            (executor.apply (.step now .graceOver)).deeds later) := rfl
      _ = deeds ++ [.abandoned (executor.flights.map (·.slot))] := by
        rw [deed, deeds_of_ended ended later]
        rfl
  · intro completed
    refine (balanced_applyAll plan cell events).not_pending_of_completed
      (numbered_applyAll plan cell events) completed ?_
    rw [pending]
    exact List.mem_map_of_mem flying

/-- Two workers that probe the gateway. -/
def probes (settle : Duration) : Plan := ⟨.ping settle, 2, .ofMillis 500, 2, 0⟩

/-- Two iterations; one of them gets its answer before dispatching ends, and its worker is joined if
it can be. -/
def oneAnswer : List LaneEvent :=
  [.step (.initial none) .enter, .step (.initial none) .tick, .step (.initial none) .tick,
    .task 0 (.begin 7), .task 1 (.begin 7), .task 0 (.answer (.ofStatus 200 .zero)),
    .step (.initial none) .deadline, .step (.initial none) (.join 0)]

theorem completed_unless_settling_one :
    let settling := subscribe (probes (.ofMillis 5000)) (.initial none)
    let unsettled := subscribe (probes .zero) (.initial none)
    ((settling.applyAll oneAnswer).choose (.initial none) ⟨true, true, true, true⟩ =
        some .graceOver ∧
      ∀ later, settling.deeds (oneAnswer ++ .step (.initial none) .graceOver :: later) =
        settling.deeds oneAnswer ++ [.abandoned [⟨1, 0⟩, ⟨0, 0⟩]]) ∧
    (unsettled.applyAll oneAnswer).choose (.initial none) ⟨true, true, true, true⟩ =
        some .graceOver ∧
      (probes .zero).scenario.settle.isZero = true ∧
      (unsettled.returns oneAnswer).Perm (results (unsettled.deeds oneAnswer)) := by
  intro settling unsettled
  have expired : (settling.applyAll oneAnswer).choose (.initial none) ⟨true, true, true, true⟩ =
      some .graceOver := by decide +kernel
  have expired' : (unsettled.applyAll oneAnswer).choose (.initial none) ⟨true, true, true, true⟩ =
      some .graceOver := by decide +kernel
  obtain ⟨-, -, -, later, -⟩ := completed_unless_settling (probes (.ofMillis 5000))
    (.initial none) oneAnswer (.initial none) ⟨true, true, true, true⟩ expired
  obtain ⟨-, kept, -⟩ := completed_unless_settling (probes .zero) (.initial none) oneAnswer
    (.initial none) ⟨true, true, true, true⟩ expired'
  have flying : (settling.applyAll oneAnswer).flights.map (·.slot) = [⟨1, 0⟩, ⟨0, 0⟩] := by
    decide +kernel
  rw [flying] at later
  exact ⟨⟨expired, later⟩, expired', rfl, kept rfl⟩

/-- An iteration that has returned in time is abandoned with one that has not, as its worker idles
for longer than the grace period lasts. -/
theorem abandoned_though_returned :
    let start := subscribe (probes (.ofMillis 5000)) (.initial none)
    let ended := start.applyAll (oneAnswer ++ [.step (.initial none) .graceOver])
    ended.stage = .ended ∧ (start.returns oneAnswer).map (·.1) = [⟨0, 0⟩] ∧
    ended.counters = { dispatched := 2, abandoned := 2 } ∧
    ¬ ∀ slot outcome, (slot, outcome) ∈ start.returns oneAnswer →
      .completed slot outcome ∈ start.deeds (oneAnswer ++ [.step (.initial none) .graceOver]) := by
  intro start ended
  have returned : (start.returns oneAnswer).map (·.1) = [⟨0, 0⟩] := by decide +kernel
  refine ⟨by decide +kernel, returned, by decide +kernel, fun kept => ?_⟩
  have first : (⟨0, 0⟩ : Slot) ∈ (start.returns oneAnswer).map (·.1) := by simp [returned]
  obtain ⟨⟨slot, outcome⟩, member, -⟩ := List.mem_map.mp first
  have lost : completions (start.deeds (oneAnswer ++ [.step (.initial none) .graceOver])) = [] := by
    decide +kernel
  have completed : slot ∈ completions
      (start.deeds (oneAnswer ++ [.step (.initial none) .graceOver])) :=
    List.mem_filterMap.mpr ⟨.completed slot outcome, kept slot outcome member, rfl⟩
  rw [lost] at completed
  cases completed

end Executor

end Cadence
