import Cadence.Proofs.Executor.Grace

/-!
# Workers take turns

A worker runs one iteration after another. It gets the next one only after the last has ended, has
idled for the settle time of its scenario and has been joined with an outcome. An iteration that
broke off or was abandoned is therefore the last of its worker.
-/

namespace Cadence

/-- An iteration settles before it ends with an outcome, if its scenario does. -/
theorem Trail.settled {scenario : Scenario} {context : IterationContext} {phase : Phase}
    {moves : List (Stimulus × Option Request)} {outcome : Outcome}
    (trail : Trail scenario context phase moves (.ends (some outcome)))
    (settles : scenario.settle.isZero = false) :
    ∃ before, moves = before ++ [(.wake, none)] ∧
      Trail scenario context phase before (.goesOn (.settling outcome)) := by
  generalize reached : Phase.Progress.ends (some outcome) = progress at trail
  induction trail with
  | here phase => cases reached
  | @ends phase stimulus ended step =>
    obtain rfl : some outcome = ended := by simpa using reached
    rcases Phase.step?_cases step with ⟨body, -, -, same⟩ | ⟨-, same⟩
    · cases body <;> simp [Phase.Progress.ofBody, settles] at same
    · cases phase with
      | settling idled =>
        obtain rfl : outcome = idled := by simpa [Phase.outcome?] using same
        cases stimulus <;> simp [Phase.step?] at step
        exact ⟨[], rfl, .here _⟩
      | fresh => simp [Phase.outcome?] at same
      | running body => simp [Phase.outcome?] at same
  | goesOn step trail ih =>
    obtain ⟨before, rfl, rest⟩ := ih reached
    exact ⟨_ :: before, rfl, .goesOn step rest⟩

/-- The iteration of a slot has ended so. -/
def Concluded (scenario : Scenario) (legs : List Leg) (slot : Slot) (outcome : Option Outcome) :
    Prop :=
  ∃ serial, Trail scenario (slot.context scenario serial) .fresh (moves slot legs) (.ends outcome)

theorem Concluded.leg {scenario : Scenario} {legs : List Leg} {slot : Slot}
    {outcome : Option Outcome} (h : Concluded scenario legs slot outcome) {leg : Leg}
    (apart : leg.slot ≠ slot) : Concluded scenario (legs ++ [leg]) slot outcome := by
  unfold Concluded
  rwa [moves_concat_of_ne apart]

namespace Executor

/-- The slots of the iterations that go on or wait to be joined, abandoned ones included. -/
def outstanding (executor : Executor) : List Slot :=
  executor.pending ++ executor.detached.map (·.slot)

/-- What has become of iterations that do not go on. -/
structure Closed (plan : Plan) (executor : Executor) (deeds : List Deed) (legs : List Leg) :
    Prop where
  trailed : Trailed plan executor deeds legs
  balanced : Balanced plan executor deeds
  landed : ∀ landing ∈ executor.landings,
    Concluded plan.scenario legs landing.slot landing.outcome
  completed : ∀ slot outcome, .completed slot outcome ∈ deeds →
    Concluded plan.scenario legs slot (some outcome)
  detached : ∀ flight ∈ executor.detached, flight.slot ∈ abandonments deeds
  /-- A worker whose iteration broke off has no slot any more. -/
  lost : ∀ slot ∈ losses deeds, slot.worker ∉ executor.slots.map (·.worker)

variable {plan : Plan} {executor next : Executor} {deeds : List Deed} {legs : List Leg}

theorem closed_subscribe (plan : Plan) (cell : StopCell) :
    Closed plan (subscribe plan cell) [] [] where
  trailed := trailed_subscribe plan cell
  balanced := balanced_subscribe plan cell
  landed := nofun
  completed := nofun
  detached := nofun
  lost := nofun

/-- No step gives a slot to a worker that has none. -/
theorem Turn.workers_subset {deed : Option Deed} (turn : Turn executor deed next) :
    next.slots.map (·.worker) ⊆ executor.slots.map (·.worker) := by
  cases turn with
  | quiet stage seen watching ending => exact List.Subset.refl _
  | dropped dispatching full => exact List.Subset.refl _
  | started dispatching slot rest free =>
    intro worker
    simp only [slots, pending, free, List.map_cons, List.cons_append, List.map_append,
      List.mem_cons, List.mem_append]
    tauto
  | completed before after slot outcome stage landed ending =>
    intro worker
    simp only [slots, pending, landed, List.map_cons, List.cons_append, List.map_append,
      List.mem_cons, List.mem_append]
    tauto
  | lost before after slot stage landed ending =>
    intro worker
    simp only [slots, pending, landed, List.map_cons, List.map_append, List.mem_cons,
      List.mem_append]
    tauto
  | abandoned draining =>
    intro worker
    simp only [slots, pending, giveUp, List.map_append, List.map_nil, List.nil_append,
      List.mem_append]
    tauto

/-- The join of an iteration that broke off takes its slot away. -/
theorem slots_perm_of_landed {before after : List Landing} {landing : Landing}
    (landed : executor.landings = before ++ landing :: after) (free : next.free = executor.free)
    (flights : next.flights = executor.flights) (landings : next.landings = before ++ after)
    (detached : next.detached = executor.detached) :
    executor.slots.Perm (landing.slot :: next.slots) := by
  simp only [slots, free, detached]
  exact (((pending_perm_of_landed landed flights landings).append_right _).append_left _).trans
    List.perm_middle

/-- A slot that is taken away was the only one of its worker. -/
theorem Numbered.worker_gone (h : Numbered plan executor deeds) {slot : Slot}
    (moved : executor.slots.Perm (slot :: next.slots)) :
    slot.worker ∉ next.slots.map (·.worker) :=
  (List.nodup_cons.mp ((moved.map (·.worker)).nodup_iff.mp h.distinct)).1

theorem Closed.turn (h : Closed plan executor deeds legs) {deed : Option Deed}
    (turn : Turn executor deed next) : Closed plan next (deeds ++ deed.toList) legs := by
  have trailed := h.trailed.turn turn
  have balanced := h.balanced.turn turn
  have kept : ∀ slot ∈ losses deeds, slot.worker ∉ next.slots.map (·.worker) :=
    fun slot lost member => h.lost slot lost (turn.workers_subset member)
  cases turn with
  | quiet stage seen watching ending =>
    refine ⟨trailed, balanced, h.landed, ?_, ?_, ?_⟩
    · simpa using h.completed
    · simpa using h.detached
    · simpa using kept
  | dropped dispatching full =>
    refine ⟨trailed, balanced, h.landed, ?_, ?_, ?_⟩
    · simpa using h.completed
    · simpa [Deed.given] using h.detached
    · simpa [Deed.lost?] using kept
  | started dispatching slot rest free =>
    refine ⟨trailed, balanced, h.landed, ?_, ?_, ?_⟩
    · simpa using h.completed
    · simpa [Deed.given] using h.detached
    · simpa [Deed.lost?] using kept
  | completed before after slot outcome stage landed ending =>
    refine ⟨trailed, balanced, ?_, ?_, ?_, ?_⟩
    · intro landing member
      exact h.landed landing (landed ▸ ((List.sublist_cons_self _ _).append_left _).subset member)
    · intro other made member
      rcases List.mem_append.mp member with member | member
      · exact h.completed other made member
      · obtain ⟨rfl, rfl⟩ : other = slot ∧ made = outcome := by simpa using member
        exact h.landed ⟨other, some made⟩ (by simp [landed])
    · simpa [Deed.given] using h.detached
    · simpa [Deed.lost?] using kept
  | lost before after slot stage landed ending =>
    refine ⟨trailed, balanced, ?_, ?_, ?_, ?_⟩
    · intro landing member
      exact h.landed landing (landed ▸ ((List.sublist_cons_self _ _).append_left _).subset member)
    · simpa using h.completed
    · simpa [Deed.given] using h.detached
    · intro other member
      rcases List.mem_append.mp (losses_append _ _ ▸ member) with member | member
      · exact kept other member
      · obtain rfl : other = slot := by simpa [Deed.lost?] using member
        exact h.trailed.numbered.worker_gone (slots_perm_of_landed landed rfl rfl rfl rfl)
  | abandoned draining =>
    refine ⟨trailed, balanced, ?_, ?_, ?_, ?_⟩
    · intro landing member
      cases member
    · simpa using h.completed
    · intro flight member
      have flying : flight.slot ∈ executor.pending :=
        List.mem_append_left _ (List.mem_map_of_mem member)
      simp [Deed.given, flying]
    · simpa [Deed.lost?] using kept

/-- Every iteration that was started is at most one of these: completed, lost, abandoned or in
flight. -/
theorem Closed.apart (h : Closed plan executor deeds legs) :
    (completions deeds ++ (losses deeds ++ (abandonments deeds ++ executor.pending))).Nodup :=
  h.balanced.flow.nodup_iff.mp h.trailed.numbered.starts_nodup

/-- An iteration that goes on is not among those that have ended. -/
theorem Closed.flight_apart (h : Closed plan executor deeds legs) {flight : Flight}
    (flying : flight ∈ executor.flights ++ executor.detached) :
    flight.slot ∉ completions deeds ∧ flight.slot ∉ executor.landings.map (·.slot) := by
  constructor
  · intro completed
    refine List.disjoint_of_nodup_append h.apart completed ?_
    rcases List.mem_append.mp flying with flying | flying
    · simp [pending, List.mem_map_of_mem flying]
    · simp [h.detached flight flying]
  · intro landed
    have moved : executor.slots.Perm (executor.landings.map (·.slot) ++
        ((executor.flights ++ executor.detached).map (·.slot) ++ executor.free)) := by
      refine List.perm_iff_count.mpr fun slot => ?_
      simp only [slots, pending, List.map_append, List.count_append]
      omega
    have distinct := moved.nodup_iff.mp (List.Nodup.of_map _ h.trailed.numbered.distinct)
    exact List.disjoint_of_nodup_append distinct landed
      (List.mem_append_left _ (List.mem_map_of_mem flying))

/-- What has ended stays as it is when another iteration goes on. -/
theorem Closed.leg (h : Closed plan executor deeds legs) {flight : Flight}
    (flying : flight ∈ executor.flights ++ executor.detached) (stimulus : Stimulus)
    (request : Option Request) :
    (∀ landing ∈ executor.landings, Concluded plan.scenario
      (legs ++ [⟨flight.slot, stimulus, request⟩]) landing.slot landing.outcome) ∧
    ∀ slot outcome, .completed slot outcome ∈ deeds → Concluded plan.scenario
      (legs ++ [⟨flight.slot, stimulus, request⟩]) slot (some outcome) := by
  obtain ⟨uncompleted, aloft⟩ := h.flight_apart flying
  constructor
  · intro landing member
    refine (h.landed landing member).leg fun same => aloft ?_
    dsimp only at same
    exact same ▸ List.mem_map_of_mem member
  · intro slot outcome member
    refine (h.completed slot outcome member).leg fun same => uncompleted ?_
    dsimp only at same
    exact same ▸ List.mem_filterMap.mpr ⟨_, member, rfl⟩

theorem Closed.nudge (h : Closed plan executor deeds legs) {worker : Nat} {stimulus : Stimulus}
    {leg : Option Leg} (nudge : Nudge executor worker stimulus leg next) :
    Closed plan next deeds (legs ++ leg.toList) := by
  have trailed := h.trailed.nudge nudge
  have balanced := h.balanced.nudge nudge
  have detached : ∀ flight ∈ next.detached, flight.slot ∈ abandonments deeds := by
    intro flight member
    obtain ⟨old, member, same⟩ :=
      List.mem_map.mp (nudge.detached_sublist.subset (List.mem_map_of_mem member))
    exact same ▸ h.detached old member
  have lost : ∀ slot ∈ losses deeds, slot.worker ∉ next.slots.map (·.worker) :=
    fun slot lost member => h.lost slot lost
      ((workers_subperm nudge.slots_subperm.2).subset member)
  cases nudge with
  | idle => simpa using h
  | goesOn flight phase found step =>
    obtain ⟨landed, completed⟩ := h.leg (List.mem_of_find?_eq_some found) stimulus phase.request?
    exact ⟨trailed, balanced, landed, completed, detached, lost⟩
  | landed before after flight outcome found flying step =>
    have aloft := List.mem_of_find?_eq_some found
    obtain ⟨landed, completed⟩ := h.leg aloft stimulus none
    refine ⟨trailed, balanced, ?_, completed, detached, lost⟩
    intro landing member
    rcases List.mem_append.mp member with member | member
    · exact landed landing member
    · obtain rfl := List.mem_singleton.mp member
      exact ⟨flight.serial, (h.trailed.flown_leg aloft step).1⟩
  | vanished before after flight outcome found flying step =>
    obtain ⟨landed, completed⟩ := h.leg (List.mem_of_find?_eq_some found) stimulus none
    exact ⟨trailed, balanced, landed, completed, detached, lost⟩

theorem closed_applyAll (plan : Plan) (cell : StopCell) (events : List LaneEvent) :
    Closed plan ((subscribe plan cell).applyAll events) ((subscribe plan cell).deeds events)
      ((subscribe plan cell).legs events) :=
  history_induction (motive := fun executor deeds legs => Closed plan executor deeds legs)
    (closed_subscribe plan cell) (fun h turn => h.turn turn) (fun h nudge => h.nudge nudge) events

/-- An iteration is started on the first free slot. -/
theorem Turn.free_of_started {slot : Slot} (turn : Turn executor (some (.started slot)) next) :
    executor.stage = .dispatching ∧ ∃ rest, executor.free = slot :: rest := by
  cases turn with
  | started dispatching slot rest free => exact ⟨dispatching, rest, free⟩

theorem free_of_started {event : LaneEvent} {slot : Slot}
    (started : executor.eventDeed? event = some (.started slot)) :
    executor.stage = .dispatching ∧ ∃ rest, executor.free = slot :: rest := by
  cases event with
  | task worker stimulus => cases started
  | step now choice =>
    have turn := perform_turn executor now choice
    rw [show executor.deed? choice = some (.started slot) from started] at turn
    exact turn.free_of_started

/-- The worker of a free slot has nothing in flight, nothing that was lost and nothing that was
abandoned: all that it has had was completed. -/
theorem Closed.completed_of_free (h : Closed plan executor deeds legs)
    (going : ∀ slots, .abandoned slots ∉ deeds) {slot earlier : Slot} (free : slot ∈ executor.free)
    (given : earlier ∈ starts deeds) (same : earlier.worker = slot.worker) :
    earlier ∈ completions deeds := by
  have holds : earlier.worker ∈ executor.slots.map (·.worker) :=
    same ▸ List.mem_map_of_mem (List.mem_append_left _ free)
  have flow := h.balanced.flow.mem_iff.mp given
  rw [abandonments_eq_nil going, List.nil_append, List.mem_append, List.mem_append] at flow
  rcases flow with completed | lost | pending
  · exact completed
  · exact absurd holds (h.lost earlier lost)
  · have distinct := h.trailed.numbered.distinct
    rw [slots, List.map_append] at distinct
    have idle : earlier.worker ∈ executor.free.map (·.worker) :=
      same ▸ List.mem_map_of_mem free
    exact absurd (List.mem_map_of_mem (List.mem_append_left _ pending))
      (List.disjoint_of_nodup_append distinct idle)

/-- The iteration of a slot is over and cannot be completed any more: it broke off, seen or not, or
was abandoned. -/
def Fallen (executor : Executor) (deeds : List Deed) (slot : Slot) : Prop :=
  ⟨slot, none⟩ ∈ executor.landings ∨ slot ∈ losses deeds ∨ slot ∈ abandonments deeds

theorem Fallen.turn {slot : Slot} (h : Fallen executor deeds slot) {deed : Option Deed}
    (turn : Turn executor deed next) : Fallen next (deeds ++ deed.toList) slot := by
  rcases h with landed | lost | abandoned
  · cases turn with
    | quiet stage seen watching ending => exact Or.inl landed
    | dropped dispatching full => exact Or.inl landed
    | started dispatching other rest free => exact Or.inl landed
    | completed before after other outcome stage parts ending =>
      rw [parts] at landed
      exact Or.inl (by simpa using landed)
    | lost before after other stage parts ending =>
      rw [parts, List.mem_append, List.mem_cons] at landed
      rcases landed with early | own | late
      · exact Or.inl (List.mem_append_left _ early)
      · cases own
        exact Or.inr (Or.inl (by simp [Deed.lost?]))
      · exact Or.inl (List.mem_append_right _ late)
    | abandoned draining =>
      have pending : slot ∈ executor.pending :=
        List.mem_append_right _ (List.mem_map_of_mem landed)
      exact Or.inr (Or.inr (by simp [Deed.given, pending]))
  · exact Or.inr (Or.inl (by simp [lost]))
  · exact Or.inr (Or.inr (by simp [abandoned]))

theorem Fallen.nudge {slot : Slot} (h : Fallen executor deeds slot) {worker : Nat}
    {stimulus : Stimulus} {leg : Option Leg} (nudge : Nudge executor worker stimulus leg next) :
    Fallen next deeds slot := by
  refine h.imp_left fun landed => ?_
  cases nudge with
  | idle => exact landed
  | goesOn flight phase found step => exact landed
  | landed before after flight outcome found flying step => exact List.mem_append_left _ landed
  | vanished before after flight outcome found flying step => exact landed

/-- What has fallen was started and has not been completed. -/
theorem Closed.fallen (h : Closed plan executor deeds legs) {slot : Slot}
    (fallen : Fallen executor deeds slot) : slot ∈ starts deeds ∧ slot ∉ completions deeds := by
  have rest : slot ∈ losses deeds ++ (abandonments deeds ++ executor.pending) := by
    rcases fallen with landed | lost | abandoned
    · have pending : slot ∈ executor.pending :=
        List.mem_append_right _ (List.mem_map_of_mem landed)
      simp [pending]
    · simp [lost]
    · simp [abandoned]
  refine ⟨h.balanced.flow.mem_iff.mpr (List.mem_append_right _ rest), fun completed => ?_⟩
  exact List.disjoint_of_nodup_append h.apart completed rest

theorem mem_starts_toList {slot : Slot} {deed : Option Deed} :
    slot ∈ starts deed.toList ↔ deed = some (.started slot) := by
  cases deed with
  | none => simp [starts]
  | some deed => cases deed <;> simp [starts, Deed.started?, eq_comm]

section Starts

variable {cell : StopCell} {events : List LaneEvent} {event : LaneEvent} {slot : Slot}

/-- What has fallen stays so. -/
theorem fallen_append {gone : Slot} (later : List LaneEvent)
    (fallen : Fallen ((subscribe plan cell).applyAll events) ((subscribe plan cell).deeds events)
      gone) :
    Fallen ((subscribe plan cell).applyAll (events ++ later))
      ((subscribe plan cell).deeds (events ++ later)) gone := by
  induction later using List.reverseRecOn with
  | nil => simpa using fallen
  | append_singleton later event ih =>
    rw [← List.append_assoc, applyAll_concat, deeds_concat]
    cases event with
    | step now choice => exact ih.turn (perform_turn _ now choice)
    | task worker stimulus =>
      simpa [apply, eventDeed?] using ih.nudge (nudge_stimulate _ worker stimulus)

/-- When a worker gets an iteration, all that it has had before were joined with an outcome. -/
theorem completed_before_start
    (started : ((subscribe plan cell).applyAll events).eventDeed? event = some (.started slot)) :
    ∀ earlier ∈ issued slot.worker ((subscribe plan cell).deeds events),
      earlier ∈ completions ((subscribe plan cell).deeds events) := by
  intro earlier member
  obtain ⟨dispatching, rest, free⟩ := free_of_started started
  obtain ⟨given, same⟩ := List.mem_filter.mp member
  have first : slot ∈ ((subscribe plan cell).applyAll events).free := by simp [free]
  exact (closed_applyAll plan cell events).completed_of_free
    (not_abandoned_of_ne_ended (by simp [dispatching])) first given (by simpa using same)

/-- No worker whose iteration has fallen gets another. -/
theorem worker_ne_of_fallen {gone : Slot} {later : List LaneEvent}
    (fallen : Fallen ((subscribe plan cell).applyAll events) ((subscribe plan cell).deeds events)
      gone)
    (started : slot ∈ starts (((subscribe plan cell).applyAll events).deeds later)) :
    slot.worker ≠ gone.worker := by
  intro same
  induction later using List.reverseRecOn with
  | nil => cases started
  | append_singleton later event ih =>
    rw [deeds_concat, starts_append, List.mem_append] at started
    refine started.elim ih fun started => ?_
    rw [← applyAll_append, mem_starts_toList] at started
    obtain ⟨given, uncompleted⟩ :=
      (closed_applyAll plan cell (events ++ later)).fallen (fallen_append later fallen)
    refine uncompleted (completed_before_start started gone ?_)
    exact List.mem_filter.mpr ⟨given, by simp [same]⟩

end Starts

/-- The iterations of a worker take turns, whatever the order of events. All run under workers of
the pool, those of a worker one at a time and numbered from zero without a gap. When a worker gets
an iteration, each that it has had before was joined with an outcome, which it came to before; where
the scenario settles, the worker had idled for the settle time by then. A worker gets nothing any
more once its iteration has broken off or was abandoned. -/
theorem iterations_in_turn (plan : Plan) (cell : StopCell) (events : List LaneEvent) :
    let start := subscribe plan cell
    let executor := start.applyAll events
    let deeds := start.deeds events
    let legs := start.legs events
    (∀ slot ∈ starts deeds,
      plan.firstWorker ≤ slot.worker ∧ slot.worker < plan.firstWorker + plan.workers ∧
      ∃ serial progress, Trail plan.scenario (slot.context plan.scenario serial) .fresh
        (moves slot legs) progress) ∧
    (∀ slot ∈ executor.outstanding, slot ∈ starts deeds) ∧
    (∀ leg ∈ legs, leg.slot ∈ starts deeds) ∧
    (executor.outstanding.map (·.worker)).Nodup ∧
    (∀ worker,
      (issued worker deeds).map (·.iteration) = List.range (issued worker deeds).length) ∧
    (∀ event slot, executor.eventDeed? event = some (.started slot) →
      slot.iteration = (issued slot.worker deeds).length ∧
      ∀ earlier ∈ issued slot.worker deeds, ∃ outcome serial, .completed earlier outcome ∈ deeds ∧
        Trail plan.scenario (earlier.context plan.scenario serial) .fresh (moves earlier legs)
          (.ends (some outcome)) ∧
        (plan.scenario.settle.isZero = false →
          ∃ before, moves earlier legs = before ++ [(.wake, none)] ∧
            Trail plan.scenario (earlier.context plan.scenario serial) .fresh before
              (.goesOn (.settling outcome)))) ∧
    ∀ gone, Fallen executor deeds gone →
      ∀ later, ∀ slot ∈ starts (executor.deeds later), slot.worker ≠ gone.worker := by
  intro start executor deeds legs
  have closed : Closed plan executor deeds legs := closed_applyAll plan cell events
  have numbered := closed.trailed.numbered
  refine ⟨fun slot given => ?_, fun slot held => ?_, closed.trailed.started, ?_,
    numbered.numbered, fun event slot started => ⟨?_, fun earlier given => ?_⟩,
    fun gone fallen later slot started => worker_ne_of_fallen fallen started⟩
  · obtain ⟨low, high⟩ := numbered.issuedInRange slot given
    exact ⟨low, high, closed.trailed.flown slot⟩
  · rw [numbered.mem_starts_iff, numbered.taken slot held]
    exact Nat.lt_succ_self _
  · exact numbered.distinct.sublist ((List.sublist_append_right _ _).map _)
  · obtain ⟨-, rest, free⟩ := free_of_started started
    exact (numbered.free slot (by simp [free])).symm
  · obtain ⟨deed, done, same⟩ :=
      List.mem_filterMap.mp (completed_before_start started earlier given)
    cases deed with
    | completed own outcome =>
      obtain rfl : own = earlier := Option.some.inj same
      obtain ⟨serial, trail⟩ := closed.completed own outcome done
      exact ⟨outcome, serial, done, trail, trail.settled⟩
    | _ => cases same

end Executor

end Cadence
