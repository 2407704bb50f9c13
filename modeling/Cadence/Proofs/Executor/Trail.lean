import Cadence.Proofs.Executor.Slots

/-!
# Trails of iterations

An iteration is seen from outside as a trail: what let it go on, time after time, and what it asked
for then. Whatever the order of events, the legs of every slot are a trail of one iteration of the
scenario, from its beginning; so what holds of all trails of a scenario holds of the legs of every
slot, and of every outcome that is joined.
-/

namespace Cadence

/-- The context of the iteration in a slot. -/
def Slot.context (slot : Slot) (scenario : Scenario) (serial : Nat) : IterationContext :=
  ⟨scenario.name, slot.worker, slot.iteration, serial⟩

/-- How the iteration of a slot went on: what let it, and the request it made then. -/
def moves (slot : Slot) (legs : List Leg) : List (Stimulus × Option Request) :=
  (legs.filter fun leg => leg.slot = slot).map fun leg => (leg.stimulus, leg.request)

/-- An iteration goes on from a phase by these moves and comes so far. -/
inductive Trail (scenario : Scenario) (context : IterationContext) :
    Phase → List (Stimulus × Option Request) → Phase.Progress → Prop where
  | here (phase : Phase) : Trail scenario context phase [] (.goesOn phase)
  | ends {phase : Phase} {stimulus : Stimulus} {outcome : Option Outcome}
      (step : phase.step? scenario context stimulus = some (.ends outcome)) :
      Trail scenario context phase [(stimulus, none)] (.ends outcome)
  | goesOn {phase next : Phase} {stimulus : Stimulus} {moves : List (Stimulus × Option Request)}
      {progress : Phase.Progress}
      (step : phase.step? scenario context stimulus = some (.goesOn next))
      (trail : Trail scenario context next moves progress) :
      Trail scenario context phase ((stimulus, next.request?) :: moves) progress

/-- A trail that has not ended goes on by one more move. -/
theorem Trail.concat {scenario : Scenario} {context : IterationContext} {phase last : Phase}
    {moves : List (Stimulus × Option Request)} {stimulus : Stimulus} {progress : Phase.Progress}
    (trail : Trail scenario context phase moves (.goesOn last))
    (step : last.step? scenario context stimulus = some progress) :
    Trail scenario context phase (moves ++ [(stimulus, progress.request?)]) progress := by
  generalize reached : Phase.Progress.goesOn last = before at trail
  induction trail with
  | here phase =>
    cases reached
    cases progress with
    | goesOn next => exact .goesOn step (.here next)
    | ends outcome => exact .ends step
  | ends _ => cases reached
  | goesOn first _ ih => exact .goesOn first (ih reached)

/-- Whether an iteration of a scenario can end so. -/
def Scenario.Yields (scenario : Scenario) (outcome : Option Outcome) : Prop :=
  ∃ slot : Slot, ∃ serial moves,
    Trail scenario (slot.context scenario serial) .fresh moves (.ends outcome)

theorem moves_concat_self (legs : List Leg) (slot : Slot) (stimulus : Stimulus)
    (request : Option Request) :
    moves slot (legs ++ [⟨slot, stimulus, request⟩]) =
      moves slot legs ++ [(stimulus, request)] := by
  simp [moves]

theorem moves_concat_of_ne {slot : Slot} {leg : Leg} (h : leg.slot ≠ slot) (legs : List Leg) :
    moves slot (legs ++ [leg]) = moves slot legs := by
  simp [moves, h]

theorem moves_eq_nil {slot : Slot} {legs : List Leg} (h : ∀ leg ∈ legs, leg.slot ≠ slot) :
    moves slot legs = [] := by
  simpa [moves] using h

namespace Executor

/-- The legs of an executor are the trails of its iterations. -/
structure Trailed (plan : Plan) (executor : Executor) (deeds : List Deed) (legs : List Leg) :
    Prop where
  drives : executor.plan = plan
  numbered : Numbered plan executor deeds
  started : ∀ leg ∈ legs, leg.slot ∈ starts deeds
  flying : ∀ flight ∈ executor.flights ++ executor.detached,
    Trail plan.scenario (flight.slot.context plan.scenario flight.serial) .fresh
      (moves flight.slot legs) (.goesOn flight.phase)
  flown : ∀ slot : Slot, ∃ serial progress,
    Trail plan.scenario (slot.context plan.scenario serial) .fresh (moves slot legs) progress
  landed : ∀ landing ∈ executor.landings, plan.scenario.Yields landing.outcome
  completed : ∀ slot outcome, .completed slot outcome ∈ deeds →
    plan.scenario.Yields (some outcome)

variable {plan : Plan} {executor next : Executor} {deeds : List Deed} {legs : List Leg}

theorem trailed_subscribe (plan : Plan) (cell : StopCell) :
    Trailed plan (subscribe plan cell) [] [] where
  drives := rfl
  numbered := numbered_subscribe plan cell
  started leg member := by cases member
  flying flight member := by cases member
  flown slot := ⟨0, .goesOn .fresh, .here .fresh⟩
  landed landing member := by cases member
  completed slot outcome member := by cases member

/-- An iteration that goes on has been started. -/
theorem Numbered.flight_started (h : Numbered plan executor deeds) {flight : Flight}
    (flying : flight ∈ executor.flights ++ executor.detached) : flight.slot ∈ starts deeds := by
  have taken : flight.slot ∈ executor.pending ++ executor.detached.map (·.slot) := by
    rcases List.mem_append.mp flying with flying | flying
    · exact List.mem_append_left _ (List.mem_append_left _ (List.mem_map_of_mem flying))
    · exact List.mem_append_right _ (List.mem_map_of_mem flying)
  rw [h.mem_starts_iff, h.taken flight.slot taken]
  exact Nat.lt_succ_self _

/-- The iterations that go on have different workers. -/
theorem Numbered.flights_nodup (h : Numbered plan executor deeds) :
    ((executor.flights ++ executor.detached).map (·.slot.worker)).Nodup := by
  have kept : ((executor.flights ++ executor.detached).map (·.slot)).Sublist executor.slots := by
    rw [List.map_append]
    exact ((List.sublist_append_left _ _).append (.refl _)).trans (List.sublist_append_right _ _)
  have distinct := h.distinct.sublist (kept.map (·.worker))
  simpa [Function.comp_def] using distinct

/-- A worker has no more than one iteration that goes on. -/
theorem Numbered.flight_unique (h : Numbered plan executor deeds) {flight other : Flight}
    (first : flight ∈ executor.flights ++ executor.detached)
    (second : other ∈ executor.flights ++ executor.detached)
    (same : flight.slot.worker = other.slot.worker) : flight = other :=
  List.inj_on_of_nodup_map h.flights_nodup first second same

/-- An iteration that goes on is the one its worker is asked for. -/
theorem Numbered.flightOf?_eq_some (h : Numbered plan executor deeds) {flight : Flight}
    (flying : flight ∈ executor.flights ++ executor.detached) :
    executor.flightOf? flight.slot.worker = some flight := by
  cases found : executor.flightOf? flight.slot.worker with
  | none =>
    exact absurd (beq_self_eq_true _) (List.find?_eq_none.mp found flight flying)
  | some other =>
    have same : other.slot.worker = flight.slot.worker := by simpa using List.find?_some found
    rw [h.flight_unique (List.mem_of_find?_eq_some found) flying same]

theorem Trailed.turn (h : Trailed plan executor deeds legs) {deed : Option Deed}
    (turn : Turn executor deed next) : Trailed plan next (deeds ++ deed.toList) legs := by
  have numbered := h.numbered.turn turn
  have started : ∀ leg ∈ legs, leg.slot ∈ starts (deeds ++ deed.toList) := by
    intro leg member
    rw [starts_append]
    exact List.mem_append_left _ (h.started leg member)
  -- Only joins add to the deeds with an outcome.
  have completed (quiet : ∀ slot outcome, deed ≠ some (.completed slot outcome)) :
      ∀ slot outcome, .completed slot outcome ∈ deeds ++ deed.toList →
        plan.scenario.Yields (some outcome) := by
    intro slot outcome member
    rcases List.mem_append.mp member with member | member
    · exact h.completed slot outcome member
    · exact absurd (Option.mem_toList.mp member) (quiet slot outcome)
  cases turn with
  | quiet stage seen watching ending =>
    exact ⟨h.drives, numbered, started, h.flying, h.flown, h.landed, completed (by simp)⟩
  | dropped dispatching full =>
    exact ⟨h.drives, numbered, started, h.flying, h.flown, h.landed, completed (by simp)⟩
  | started dispatching slot rest free =>
    refine ⟨h.drives, numbered, started, ?_, h.flown, h.landed, completed (by simp)⟩
    intro flight member
    rcases List.mem_cons.mp member with rfl | member
    · have unstarted : slot ∉ starts deeds := by
        rw [h.numbered.mem_starts_iff, h.numbered.free slot (by simp [free])]
        exact Nat.lt_irrefl _
      have silent : moves slot legs = [] := by
        refine moves_eq_nil fun leg member same => unstarted ?_
        rw [← same]
        exact h.started leg member
      rw [silent]
      exact .here .fresh
    · exact h.flying flight member
  | completed before after slot outcome stage landed ending =>
    refine ⟨h.drives, numbered, started, h.flying, h.flown, ?_, ?_⟩
    · intro landing member
      exact h.landed landing (landed ▸ ((List.sublist_cons_self _ _).append_left _).subset member)
    · intro other made member
      rcases List.mem_append.mp member with member | member
      · exact h.completed other made member
      · have same : some (Deed.completed slot outcome) = some (.completed other made) :=
          Option.mem_toList.mp member
        cases same
        exact h.landed ⟨slot, some outcome⟩ (by simp [landed])
  | lost before after slot stage landed ending =>
    refine ⟨h.drives, numbered, started, h.flying, h.flown, ?_, completed (by simp)⟩
    intro landing member
    exact h.landed landing (landed ▸ ((List.sublist_cons_self _ _).append_left _).subset member)
  | abandoned draining =>
    refine ⟨h.drives, numbered, started, ?_, h.flown, ?_, completed (by simp)⟩
    · intro flight member
      exact h.flying flight (List.mem_append_left _ member)
    · intro landing member
      cases member

/-- One leg takes the trail of its slot further and no other. -/
theorem Trailed.flown_leg (h : Trailed plan executor deeds legs) {flight : Flight}
    (flying : flight ∈ executor.flights ++ executor.detached) {stimulus : Stimulus}
    {progress : Phase.Progress}
    (step : flight.phase.step? executor.plan.scenario (executor.context flight) stimulus =
      some progress) :
    Trail plan.scenario (flight.slot.context plan.scenario flight.serial) .fresh
      (moves flight.slot (legs ++ [⟨flight.slot, stimulus, progress.request?⟩])) progress ∧
    (∀ leg ∈ legs ++ [⟨flight.slot, stimulus, progress.request?⟩], leg.slot ∈ starts deeds) ∧
    ∀ slot : Slot, ∃ serial further, Trail plan.scenario (slot.context plan.scenario serial) .fresh
      (moves slot (legs ++ [⟨flight.slot, stimulus, progress.request?⟩])) further := by
  have further : Trail plan.scenario (flight.slot.context plan.scenario flight.serial) .fresh
      (moves flight.slot (legs ++ [⟨flight.slot, stimulus, progress.request?⟩])) progress := by
    rw [moves_concat_self]
    rw [context, h.drives] at step
    exact (h.flying flight flying).concat step
  refine ⟨further, ?_, ?_⟩
  · intro leg member
    rcases List.mem_append.mp member with member | member
    · exact h.started leg member
    · rw [List.mem_singleton.mp member]
      exact h.numbered.flight_started flying
  · intro slot
    by_cases same : flight.slot = slot
    · exact ⟨flight.serial, progress, same ▸ further⟩
    · rw [moves_concat_of_ne same]
      exact h.flown slot

/-- An iteration that ends is no longer among those that go on. -/
theorem Trailed.ends (h : Trailed plan executor deeds legs) {flight : Flight}
    {stimulus : Stimulus} {outcome : Option Outcome} (numbered : Numbered plan next deeds)
    (same : next.plan = executor.plan)
    (step : flight.phase.step? executor.plan.scenario (executor.context flight) stimulus =
      some (.ends outcome))
    (rest : (flight :: (next.flights ++ next.detached)).Subperm
      (executor.flights ++ executor.detached))
    (landings : ∀ landing ∈ next.landings,
      landing ∈ executor.landings ∨ landing.outcome = outcome) :
    Trailed plan next deeds (legs ++ [⟨flight.slot, stimulus, none⟩]) := by
  have flying : flight ∈ executor.flights ++ executor.detached := rest.subset (by simp)
  obtain ⟨trail, started, flown⟩ := h.flown_leg flying step
  refine ⟨same.trans h.drives, numbered, started, ?_, flown, ?_, h.completed⟩
  · intro other member
    have distinct : ((flight :: (next.flights ++ next.detached)).map (·.slot.worker)).Nodup := by
      obtain ⟨kept, perm, sublist⟩ := rest
      exact (perm.map _).nodup_iff.mp (h.numbered.flights_nodup.sublist (sublist.map _))
    have apart : flight.slot ≠ other.slot := by
      intro same
      refine (List.nodup_cons.mp distinct).1 ?_
      dsimp only
      rw [same]
      exact List.mem_map_of_mem member
    rw [moves_concat_of_ne apart]
    exact h.flying other (rest.subset (List.mem_cons_of_mem _ member))
  · intro landing member
    rcases landings landing member with member | ended
    · exact h.landed landing member
    · rw [ended]
      exact ⟨flight.slot, flight.serial, _, trail⟩

theorem Trailed.nudge (h : Trailed plan executor deeds legs) {worker : Nat} {stimulus : Stimulus}
    {leg : Option Leg} (nudge : Nudge executor worker stimulus leg next) :
    Trailed plan next deeds (legs ++ leg.toList) := by
  have numbered := h.numbered.nudge nudge
  cases nudge with
  | idle => simpa using h
  | goesOn flight phase found step =>
    have flying := List.mem_of_find?_eq_some found
    have own : flight.slot.worker = worker := by simpa using List.find?_some found
    obtain ⟨trail, started, flown⟩ := h.flown_leg flying step
    refine ⟨h.drives, numbered, started, ?_, flown, h.landed, h.completed⟩
    intro other member
    have moved : other ∈ setPhase worker phase (executor.flights ++ executor.detached) := by
      simpa [setPhase] using member
    obtain ⟨old, known, rfl⟩ := List.mem_map.mp moved
    by_cases same : old.slot.worker = worker
    · obtain rfl := h.numbered.flight_unique flying known (own.trans same.symm)
      rw [if_pos same]
      exact trail
    · have apart : flight.slot ≠ old.slot := fun equal => same (equal ▸ own)
      rw [if_neg same, Option.toList_some, moves_concat_of_ne apart]
      exact h.flying old known
  | landed before after flight outcome found flying step =>
    refine h.ends numbered rfl step ?_ ?_
    · have moved : (flight :: (before ++ after)).Subperm executor.flights := by
        rw [flying]
        exact List.perm_middle.symm.subperm
      exact moved.append (List.eraseP_sublist).subperm
    · intro landing member
      rcases List.mem_append.mp member with member | member
      · exact Or.inl member
      · exact Or.inr (by rw [List.mem_singleton.mp member])
  | vanished before after flight outcome found flying step =>
    refine h.ends numbered rfl step ?_ fun landing member => Or.inl member
    have moved : (executor.flights ++ executor.detached).Perm
        (flight :: (executor.flights ++ (before ++ after))) := by
      rw [flying, ← List.append_assoc, ← List.append_assoc]
      exact List.perm_middle
    exact moved.symm.subperm

/-- The legs of an executor are trails along every sequence of events. -/
theorem trailed_applyAll (plan : Plan) (cell : StopCell) (events : List LaneEvent) :
    Trailed plan ((subscribe plan cell).applyAll events) ((subscribe plan cell).deeds events)
      ((subscribe plan cell).legs events) :=
  history_induction (motive := fun executor deeds legs => Trailed plan executor deeds legs)
    (trailed_subscribe plan cell) (fun h turn => h.turn turn) (fun h nudge => h.nudge nudge)
    events

end Executor

end Cadence
