import Cadence.Proofs.Executor.Workers

/-!
# Replies to iterations

An iteration that has ended made certain requests, got a reply to each of them, and what it ended
with follows from those replies alone. The replies of an executor are kept as a third history: each
of them with the request that it answers. Nothing that an iteration ends with rests on a reply that
is not in it.
-/

namespace Cadence

/-- A request and what came back. -/
abbrev Exchange := Request × Reply

/-- A body that is given these replies to its requests ends with this outcome. -/
inductive Body.Comes : Body → List Exchange → Outcome → Prop where
  | done (outcome : Outcome) : Comes (.done outcome) [] outcome
  | pause {time : Duration} {next : Body} {exchanged : List Exchange} {outcome : Outcome}
      (rest : Comes next exchanged outcome) : Comes (.pause time next) exchanged outcome
  | ask {request : Request} {next : Reply → Body} {reply : Reply} {exchanged : List Exchange}
      {outcome : Outcome} (rest : Comes (next reply) exchanged outcome) :
      Comes (.ask request next) ((request, reply) :: exchanged) outcome

/-- The reply that a stimulus brings, with the request that waits for it. -/
def exchange? (awaited : Option Request) : Stimulus → Option Exchange
  | .answer reply => awaited.map fun request => (request, reply)
  | .begin _ | .wake | .breakOff => none

/-- The replies along the moves of an iteration, which may wait for one from the start. -/
def exchanges (awaited : Option Request) : List (Stimulus × Option Request) → List Exchange
  | [] => []
  | move :: moves => (exchange? awaited move.1).toList ++ exchanges move.2 moves

/-- The request whose reply an iteration waits for after its moves. -/
def awaitedAfter (awaited : Option Request) (moves : List (Stimulus × Option Request)) :
    Option Request :=
  moves.foldl (fun _ move => move.2) awaited

theorem exchanges_concat (awaited : Option Request) (moves : List (Stimulus × Option Request))
    (move : Stimulus × Option Request) :
    exchanges awaited (moves ++ [move]) =
      exchanges awaited moves ++ (exchange? (awaitedAfter awaited moves) move.1).toList := by
  induction moves generalizing awaited with
  | nil => simp [exchanges, awaitedAfter]
  | cons first moves ih => simp [exchanges, awaitedAfter, ih]

namespace Phase

variable {scenario : Scenario} {context : IterationContext}

/-- An iteration in a phase that is given these replies ends with this outcome. -/
def Comes (scenario : Scenario) (context : IterationContext) (exchanged : List Exchange)
    (outcome : Outcome) : Phase → Prop
  | .fresh => ∃ millis, (scenario.body context millis).Comes exchanged outcome
  | .running body => body.Comes exchanged outcome
  | .settling made => exchanged = [] ∧ made = outcome

def Progress.Comes (scenario : Scenario) (context : IterationContext) (exchanged : List Exchange)
    (outcome : Outcome) : Progress → Prop
  | .goesOn phase => phase.Comes scenario context exchanged outcome
  | .ends made => exchanged = [] ∧ made = some outcome

variable {exchanged : List Exchange} {outcome : Outcome}

theorem Progress.comes_of_ofBody {settle : Duration} {body : Body}
    (h : (Progress.ofBody settle body).Comes scenario context exchanged outcome) :
    body.Comes exchanged outcome := by
  cases body with
  | done made =>
    have same : exchanged = [] ∧ made = outcome := by
      unfold ofBody at h
      dsimp only at h
      split at h
      · exact ⟨h.1, Option.some.inj h.2⟩
      · exact h
    obtain ⟨rfl, rfl⟩ := same
    exact .done made
  | broken => cases h.2
  | pause time next => exact h
  | ask request next => exact h

/-- The reply that lets an iteration go on comes before those that it is given later. -/
theorem comes_of_step {phase : Phase} {stimulus : Stimulus} {progress : Progress}
    (step : phase.step? scenario context stimulus = some progress)
    (h : progress.Comes scenario context exchanged outcome) :
    phase.Comes scenario context ((exchange? phase.request? stimulus).toList ++ exchanged)
      outcome := by
  unfold step? at step
  split at step
  next millis =>
    cases step
    exact ⟨millis, Progress.comes_of_ofBody h⟩
  next request next reply =>
    cases step
    exact .ask (Progress.comes_of_ofBody h)
  next time next =>
    cases step
    exact .pause (Progress.comes_of_ofBody h)
  next made =>
    cases step
    exact ⟨h.1, Option.some.inj h.2⟩
  next =>
    cases step
    cases h.2
  next =>
    cases step
    cases h.2
  next => cases step

end Phase

namespace Trail

variable {scenario : Scenario} {context : IterationContext} {phase : Phase}
  {moves : List (Stimulus × Option Request)}

/-- The outcome of an iteration follows from the replies along its moves. -/
theorem comes {outcome : Outcome}
    (trail : Trail scenario context phase moves (.ends (some outcome))) :
    phase.Comes scenario context (exchanges phase.request? moves) outcome := by
  generalize reached : Phase.Progress.ends (some outcome) = progress at trail
  induction trail with
  | here phase => cases reached
  | ends step =>
    cases reached
    exact Phase.comes_of_step step ⟨rfl, rfl⟩
  | goesOn step trail ih => exact Phase.comes_of_step step (ih reached)

/-- An iteration that goes on waits for the reply to the last request it has made. -/
theorem awaited {last : Phase} (trail : Trail scenario context phase moves (.goesOn last)) :
    awaitedAfter phase.request? moves = last.request? := by
  generalize reached : Phase.Progress.goesOn last = progress at trail
  induction trail with
  | here phase =>
    cases reached
    rfl
  | ends step => cases reached
  | goesOn step trail ih => exact ih reached

end Trail

namespace Executor

/-- The reply that an event brings to an iteration that waits for one, with its request. -/
def answer? (executor : Executor) : LaneEvent → Option Exchange
  | .step _ _ => none
  | .task worker stimulus =>
    (executor.flightOf? worker).bind fun flight => exchange? flight.phase.request? stimulus

/-- The replies along a sequence of events, each with its request, abandoned iterations included. -/
def replies (executor : Executor) (events : List LaneEvent) : List Exchange :=
  executor.history answer? events

/-- An event that flies a leg brings what its stimulus brings to the iteration that flies it. -/
theorem answer?_of_leg {executor : Executor} {event : LaneEvent} {leg : Leg}
    (flown : executor.eventLeg? event = some leg) :
    ∃ flight ∈ executor.flights ++ executor.detached, flight.slot = leg.slot ∧
      executor.answer? event = exchange? flight.phase.request? leg.stimulus := by
  cases event with
  | step now choice => cases flown
  | task worker stimulus =>
    obtain ⟨flight, found, flown⟩ := Option.bind_eq_some_iff.mp flown
    obtain ⟨progress, -, same⟩ := Option.bind_eq_some_iff.mp flown
    cases same
    exact ⟨flight, List.mem_of_find?_eq_some found, rfl, by rw [answer?, found]; rfl⟩

/-- The replies along the legs of a slot are among those of the executor. -/
theorem exchanges_subset_replies (plan : Plan) (cell : StopCell) (events : List LaneEvent)
    (slot : Slot) :
    exchanges none (moves slot ((subscribe plan cell).legs events)) ⊆
      (subscribe plan cell).replies events := by
  -- From the end, since what a reply answers is known from the moves before it.
  induction events using List.reverseRecOn with
  | nil => exact List.nil_subset _
  | append_singleton events event ih =>
    have trailed := trailed_applyAll plan cell events
    rw [legs_concat, replies, history_concat]
    cases flown : ((subscribe plan cell).applyAll events).eventLeg? event with
    | none =>
      rw [Option.toList_none, List.append_nil]
      exact List.subset_append_of_subset_left _ ih
    | some leg =>
      obtain ⟨slot', stimulus, request⟩ := leg
      obtain ⟨flight, flying, same, brought⟩ := answer?_of_leg flown
      rw [Option.toList_some]
      by_cases own : slot' = slot
      · obtain rfl : flight.slot = slot := same.trans own
        subst own
        have waits : awaitedAfter none (moves flight.slot ((subscribe plan cell).legs events)) =
            flight.phase.request? := (trailed.flying flight flying).awaited
        rw [moves_concat_self, exchanges_concat, waits, brought]
        exact List.append_subset.mpr
          ⟨List.subset_append_of_subset_left _ ih, List.subset_append_right _ _⟩
      · rw [moves_concat_of_ne own]
        exact List.subset_append_of_subset_left _ ih

/-- A completed iteration has ended with what follows from replies of its executor. -/
theorem comes_of_completed {plan : Plan} {cell : StopCell} {events : List LaneEvent} {slot : Slot}
    {outcome : Outcome}
    (completed : .completed slot outcome ∈ (subscribe plan cell).deeds events) :
    ∃ serial millis exchanged,
      (plan.scenario.body (slot.context plan.scenario serial) millis).Comes exchanged outcome ∧
        exchanged ⊆ (subscribe plan cell).replies events := by
  obtain ⟨serial, trail⟩ := (closed_applyAll plan cell events).completed slot outcome completed
  obtain ⟨millis, comes⟩ := trail.comes
  exact ⟨serial, millis, _, comes, exchanges_subset_replies plan cell events slot⟩

end Executor

end Cadence
