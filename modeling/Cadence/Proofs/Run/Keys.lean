import Cadence.Proofs.Key
import Cadence.Proofs.Run.Lanes
import Cadence.Proofs.Run.Plan

/-!
# The keys of a run

No key is used by two iterations of a run, in whatever order its executors, their iterations and
the stop come in: the workers of different executors have different numbers, the iterations of a
worker are numbered, and the text of a key tells workers and iterations apart. An iteration writes
its key first and reads it when the write has been answered, so all that the gateway is asked about
a key is one write and one read behind it.
-/

namespace Cadence

/-- The key that a request touches. -/
def Request.key? : Request → Option String
  | .ping => none
  | .put key _ _ | .get key => some key

/-- Filtering what comes of some elements leaves out nothing that comes of the others. -/
theorem filter_filterMap_filter {α β : Type} {f : α → Option β} {test : β → Bool} {keep : α → Bool}
    {items : List α}
    (kept : ∀ item ∈ items, ∀ value, f item = some value → test value = true → keep item = true) :
    ((items.filter keep).filterMap f).filter test = (items.filterMap f).filter test := by
  induction items with
  | nil => rfl
  | cons item items ih =>
    have rest := ih fun other member => kept other (List.mem_cons_of_mem _ member)
    by_cases keeps : keep item = true
    · rw [List.filter_cons_of_pos keeps]
      cases image : f item with
      | none => rw [List.filterMap_cons_none image, List.filterMap_cons_none image, rest]
      | some value =>
        rw [List.filterMap_cons_some image, List.filterMap_cons_some image, List.filter_cons,
          List.filter_cons, rest]
    · rw [List.filter_cons_of_neg keeps, rest]
      cases image : f item with
      | none => rw [List.filterMap_cons_none image]
      | some value =>
        have fails : ¬ test value = true := fun passes =>
          keeps (kept item (by simp) value image passes)
        rw [List.filterMap_cons_some image, List.filter_cons_of_neg fails]

namespace Scenario

/-- The course of an iteration of a configured scenario in a slot. -/
def Courses (config : RunConfig) (slot : Slot) (moves : List (Stimulus × Option Request)) : Prop :=
  (∃ millis reply, FollowsCourse (pingCourse millis reply) moves) ∨
    ∃ millis written answered, FollowsCourse
      (putGetCourse (Key.text config.keyPrefix slot.worker slot.iteration millis) config.value
        config.ttl millis written answered) moves

theorem BuiltIn.courses {config : RunConfig} {scenario : Scenario} (h : BuiltIn config scenario)
    {slot : Slot} {serial : Nat} {moves : List (Stimulus × Option Request)}
    {progress : Phase.Progress}
    (trail : Trail scenario (slot.context scenario serial) .fresh moves progress) :
    Courses config slot moves := by
  rcases h with rfl | rfl
  · obtain ⟨millis, reply, follows⟩ := moves_ping trail
    exact Or.inl ⟨millis, reply, follows⟩
  · obtain ⟨millis, written, answered, follows⟩ := moves_putGet trail
    exact Or.inr ⟨millis, written, answered, follows⟩

/-- The requests of an iteration are a probe, or a write of its key and a read of it. -/
theorem Courses.requests {config : RunConfig} {slot : Slot}
    {moves : List (Stimulus × Option Request)} (h : Courses config slot moves) :
    moves.filterMap (·.2) <+: [.ping] ∨ ∃ millis,
      let key := Key.text config.keyPrefix slot.worker slot.iteration millis
      moves.filterMap (·.2) <+: [.put key config.value config.ttl, .get key] := by
  rcases h with ⟨millis, reply, follows⟩ | ⟨millis, written, answered, follows⟩
  · exact Or.inl follows.requests
  · exact Or.inr ⟨millis, follows.requests⟩

end Scenario

namespace Executor

variable {config : RunConfig} {plan : Plan} {executor : Executor} {deeds : List Deed}
  {legs : List Leg} {flight : Flight} {millis : Int} {key value : String} {ttl : Duration}

/-- An iteration that has written its key waits for the reply, and reads the key then. -/
theorem Trailed.phase_of_put (h : Trailed plan executor deeds legs)
    (builtIn : Scenario.BuiltIn config plan.scenario)
    (flying : flight ∈ executor.flights ++ executor.detached)
    (written : moves flight.slot legs = [(.begin millis, some (.put key value ttl))]) :
    ∃ next : Reply → Reply → Body, flight.phase =
      .running (.ask (.put key value ttl) fun reply => .ask (.get key) (next reply)) := by
  have trail := h.flying flight flying
  rw [written] at trail
  rcases builtIn with same | same
  · rw [same] at trail
    rcases Scenario.moves_fresh (fun _ => rfl) trail with none | broken | ⟨_, _, probed, -⟩
    · cases none
    · cases broken
    · cases probed
  · rw [same] at trail
    rcases Scenario.moves_fresh (fun _ => rfl) trail with none | broken | ⟨_, _, asked, onward⟩
    · cases none
    · cases broken
    · cases asked
      generalize reached : Phase.Progress.goesOn flight.phase = progress at onward
      cases onward
      exact ⟨_, Phase.Progress.goesOn.inj reached⟩

/-- Whatever a write is answered with, the read is made. -/
theorem Trailed.get_of_put (h : Trailed plan executor deeds legs)
    (builtIn : Scenario.BuiltIn config plan.scenario)
    (flying : flight ∈ executor.flights ++ executor.detached)
    (written : moves flight.slot legs = [(.begin millis, some (.put key value ttl))])
    (reply : Reply) :
    (executor.stimulate flight.slot.worker (.answer reply)).2 = some (.get key) := by
  obtain ⟨next, phase⟩ := h.phase_of_put builtIn flying written
  rw [stimulate_request]
  simp [leg?, h.numbered.flightOf?_eq_some flying, phase, Phase.step?, Phase.Progress.ofBody,
    Phase.Progress.request?, Phase.request?]

end Executor

namespace Run

section Keys

variable {config : RunConfig} {plans : List Plan}

/-- The legs of every executor are those of iterations it has started, one for each slot. -/
theorem lane_trailed {plan : Plan} {lane : Nat} (found : plans[lane]? = some plan)
    (thresholds : List Threshold) (cell : StopCell) (events : List RunEvent) :
    ∃ executor,
      ((start plans thresholds cell).applyAll events).executors[lane]? = some executor ∧
      Executor.Trailed plan executor (ofLane lane ((start plans thresholds cell).deeds events))
        (ofLane lane ((start plans thresholds cell).legs events)) :=
  lane_applyAll (Executor.trailed_applyAll plan cell) found thresholds events

theorem lane_courses (h : Plan.ofConfig config = .ok plans) (thresholds : List Threshold)
    (cell : StopCell) (events : List RunEvent) (lane : Nat) (slot : Slot) :
    Scenario.Courses config slot
      (moves slot (ofLane lane ((start plans thresholds cell).legs events))) := by
  cases found : plans[lane]? with
  | none =>
    rw [legs, ofLane_history_of_unplanned _ found]
    exact Or.inl ⟨0, default, followsCourse_nil _⟩
  | some plan =>
    obtain ⟨executor, -, trailed⟩ := lane_trailed found thresholds cell events
    obtain ⟨serial, progress, trail⟩ := trailed.flown slot
    obtain ⟨-, builtIn, -⟩ := Plan.ofConfig_eq_ok h
    exact (builtIn plan (List.mem_of_getElem? found)).courses trail

/-- A slot is given to one iteration only. -/
theorem lane_starts_nodup (plans : List Plan) (thresholds : List Threshold) (cell : StopCell)
    (events : List RunEvent) (lane : Nat) :
    (starts (ofLane lane ((start plans thresholds cell).deeds events))).Nodup := by
  cases found : plans[lane]? with
  | none =>
    rw [deeds, ofLane_history_of_unplanned _ found]
    exact List.nodup_nil
  | some plan =>
    obtain ⟨executor, -, trailed⟩ := lane_trailed found thresholds cell events
    exact trailed.numbered.starts_nodup

/-- Executors of different scenarios have different workers. -/
theorem lane_unique (h : Plan.ofConfig config = .ok plans) {first second : Nat} {plan other : Plan}
    (found : plans[first]? = some plan) (found' : plans[second]? = some other) {worker : Nat}
    (within : plan.firstWorker ≤ worker ∧ worker < plan.firstWorker + plan.workers)
    (within' : other.firstWorker ≤ worker ∧ worker < other.firstWorker + other.workers) :
    first = second := by
  obtain ⟨-, -, apart⟩ := Plan.ofConfig_eq_ok h
  obtain ⟨inside, rfl⟩ := List.getElem?_eq_some_iff.mp found
  obtain ⟨inside', rfl⟩ := List.getElem?_eq_some_iff.mp found'
  have apart := List.pairwise_iff_getElem.mp apart
  rcases Nat.lt_trichotomy first second with before | same | behind
  · have := apart first second inside inside' before
    omega
  · exact same
  · have := apart second first inside' inside behind
    omega

variable {thresholds : List Threshold} {cell : StopCell} {events : List RunEvent}

/-- Who makes a leg, and that it belongs to an iteration which has been started. -/
theorem leg_started {lane : Nat} {leg : Leg}
    (member : (lane, leg) ∈ (start plans thresholds cell).legs events) :
    ∃ plan, plans[lane]? = some plan ∧
      leg.slot ∈ starts (ofLane lane ((start plans thresholds cell).deeds events)) ∧
      plan.firstWorker ≤ leg.slot.worker ∧
      leg.slot.worker < plan.firstWorker + plan.workers := by
  have inside := mem_ofLane.mpr member
  cases found : plans[lane]? with
  | none =>
    rw [legs, ofLane_history_of_unplanned _ found] at inside
    cases inside
  | some plan =>
    obtain ⟨executor, -, trailed⟩ := lane_trailed found thresholds cell events
    have started := trailed.started leg inside
    exact ⟨plan, rfl, started, trailed.numbered.issuedInRange leg.slot started⟩

/-- The key of a request is that of the iteration which makes it. -/
theorem key_of_leg (h : Plan.ofConfig config = .ok plans) {lane : Nat} {leg : Leg} {key : String}
    (member : (lane, leg) ∈ (start plans thresholds cell).legs events)
    (touches : leg.request.bind Request.key? = some key) :
    ∃ millis, key = Key.text config.keyPrefix leg.slot.worker leg.slot.iteration millis := by
  obtain ⟨request, made, touches⟩ := Option.bind_eq_some_iff.mp touches
  have asked : request ∈ (moves leg.slot
      (ofLane lane ((start plans thresholds cell).legs events))).filterMap (·.2) := by
    refine List.mem_filterMap.mpr ⟨(leg.stimulus, leg.request), ?_, made⟩
    exact List.mem_map.mpr ⟨leg, List.mem_filter.mpr ⟨mem_ofLane.mpr member, by simp⟩, rfl⟩
  rcases (lane_courses h thresholds cell events lane leg.slot).requests with probe | ⟨millis, both⟩
  · obtain rfl := List.mem_singleton.mp (probe.subset asked)
    cases touches
  · refine ⟨millis, ?_⟩
    have either := both.subset asked
    simp only [List.mem_cons, List.not_mem_nil, or_false] at either
    rcases either with rfl | rfl
    · exact (Option.some.inj touches).symm
    · exact (Option.some.inj touches).symm

/-- Requests that touch the same key are made by the same iteration. -/
theorem iteration_of_key (h : Plan.ofConfig config = .ok plans) {first second : Nat × Leg}
    {key : String} (member : first ∈ (start plans thresholds cell).legs events)
    (member' : second ∈ (start plans thresholds cell).legs events)
    (touches : first.2.request.bind Request.key? = some key)
    (touches' : second.2.request.bind Request.key? = some key) :
    first.1 = second.1 ∧ first.2.slot = second.2.slot := by
  obtain ⟨lane, leg⟩ := first
  obtain ⟨lane', leg'⟩ := second
  obtain ⟨millis, text⟩ := key_of_leg h member touches
  obtain ⟨millis', text'⟩ := key_of_leg h member' touches'
  obtain ⟨-, worker, iteration, -⟩ := Key.text_inj (text.symm.trans text')
  obtain ⟨plan, found, -, within⟩ := leg_started member
  obtain ⟨other, found', -, within'⟩ := leg_started member'
  rw [← worker] at within'
  refine ⟨lane_unique h found found' within within', ?_⟩
  calc leg.slot = ⟨leg.slot.worker, leg.slot.iteration⟩ := rfl
    _ = ⟨leg'.slot.worker, leg'.slot.iteration⟩ := by rw [worker, iteration]
    _ = leg'.slot := rfl

/-- What is asked about a key is asked by one iteration. -/
theorem requests_of_key (h : Plan.ofConfig config = .ok plans) {first : Nat × Leg} {key : String}
    (member : first ∈ (start plans thresholds cell).legs events)
    (touches : first.2.request.bind Request.key? = some key) :
    (((start plans thresholds cell).legs events).filterMap (·.2.request)).filter
        (fun request => request.key? = some key) =
      ((moves first.2.slot (ofLane first.1 ((start plans thresholds cell).legs events))).filterMap
        (·.2)).filter (fun request => request.key? = some key) := by
  have own : (moves first.2.slot
      (ofLane first.1 ((start plans thresholds cell).legs events))).filterMap (·.2) =
      (((start plans thresholds cell).legs events).filter
        fun entry => entry.2.slot = first.2.slot && entry.1 == first.1).filterMap
          (·.2.request) := by
    simp only [moves, ofLane, List.filterMap_map, List.filter_map, List.filter_filter,
      Function.comp_def]
  rw [own, filter_filterMap_filter]
  intro second member' request made passes
  have touches' : second.2.request.bind Request.key? = some key := by
    rw [made]
    simpa using passes
  obtain ⟨lane, slot⟩ := iteration_of_key h member member' touches touches'
  simp [lane, slot]

/-- All that is asked about a key is a write and then a read of it, in that order and once. -/
theorem requests_prefix (h : Plan.ofConfig config = .ok plans) (key : String) :
    (((start plans thresholds cell).legs events).filterMap (·.2.request)).filter
        (fun request => request.key? = some key) <+:
      [.put key config.value config.ttl, .get key] := by
  by_cases touched : ∃ first ∈ (start plans thresholds cell).legs events,
      first.2.request.bind Request.key? = some key
  · obtain ⟨first, member, touches⟩ := touched
    rw [requests_of_key h member touches]
    rcases (lane_courses h thresholds cell events first.1 first.2.slot).requests with
      probe | ⟨millis, both⟩
    · have none := probe.filter fun request => request.key? = some key
      exact none.trans (by simp [Request.key?])
    · have some := both.filter fun request => request.key? = some key
      refine some.trans ?_
      by_cases same : Key.text config.keyPrefix first.2.slot.worker first.2.slot.iteration millis =
          key
      · simp [Request.key?, same]
      · simp [Request.key?, same]
  · have silent : (((start plans thresholds cell).legs events).filterMap (·.2.request)).filter
        (fun request => request.key? = some key) = [] := by
      refine List.filter_eq_nil_iff.mpr fun request member passes => touched ?_
      obtain ⟨first, inside, made⟩ := List.mem_filterMap.mp member
      refine ⟨first, inside, ?_⟩
      rw [made]
      simpa using passes
    rw [silent]
    exact List.nil_prefix

end Keys

/-- Every key belongs to one iteration of a run, which writes it once and then, as soon as the write
has been answered and whatever the answer, reads it once. In the log of requests a key is met in no
other way. -/
theorem keys_written_then_read {config : RunConfig} {plans : List Plan}
    (h : Plan.ofConfig config = .ok plans) (thresholds : List Threshold) (cell : StopCell)
    (events : List RunEvent) :
    let start := Run.start plans thresholds cell
    let run := start.applyAll events
    let legs := start.legs events
    let log := run.requests.reverse
    (∀ key, log.filter (fun request => request.key? = some key) <+:
      [.put key config.value config.ttl, .get key]) ∧
    log = legs.filterMap (·.2.request) ∧
    (∀ first ∈ legs, ∀ second ∈ legs, ∀ key, first.2.request.bind Request.key? = some key →
      second.2.request.bind Request.key? = some key →
        first.1 = second.1 ∧ first.2.slot = second.2.slot) ∧
    (∀ lane, let started := starts (ofLane lane (start.deeds events))
      started.Nodup ∧ (∀ leg ∈ ofLane lane legs, leg.slot ∈ started) ∧
        ∀ slot, Scenario.Courses config slot (moves slot (ofLane lane legs))) ∧
    ∀ (lane : Nat) (executor : Executor), run.executors[lane]? = some executor →
      ∀ flight ∈ executor.flights, ∀ millis key value ttl,
        moves flight.slot (ofLane lane legs) = [(.begin millis, some (.put key value ttl))] →
          ∀ reply, (executor.stimulate flight.slot.worker (.answer reply)).2 = some (.get key) := by
  intro start run legs log
  have asked : log = legs.filterMap (·.2.request) := by
    exact (requests_applyAll start events).trans (List.nil_append _)
  refine ⟨?_, asked, ?_, ?_, ?_⟩
  · intro key
    rw [asked]
    exact requests_prefix h key
  · intro first member second member' key touches touches'
    exact iteration_of_key h member member' touches touches'
  · intro lane started
    refine ⟨lane_starts_nodup plans thresholds cell events lane, ?_,
      lane_courses h thresholds cell events lane⟩
    intro leg member
    obtain ⟨plan, -, inside, -⟩ := leg_started (mem_ofLane.mp member)
    exact inside
  · intro lane executor found flight flying millis key value ttl written reply
    obtain ⟨plan, planned⟩ := planned_of_found found
    obtain ⟨other, found', trailed⟩ := lane_trailed planned thresholds cell events
    obtain rfl : other = executor := Option.some.inj (found'.symm.trans found)
    obtain ⟨-, builtIn, -⟩ := Plan.ofConfig_eq_ok h
    exact trailed.get_of_put (builtIn plan (List.mem_of_getElem? planned))
      (List.mem_append_left _ flying) written reply

theorem keys_written_then_read_default : ∃ plans, Plan.ofConfig RunConfig.default = .ok plans ∧
    let start := Run.start plans RunConfig.default.thresholds (.initial none)
    let events : List RunEvent := [.step 1 .enter, .step 1 .tick, .step 1 .tick,
      .task 1 50 (.begin 7), .task 1 51 (.begin 7), .task 1 51 (.answer (.lost "refused" .zero)),
      .stop "enough", .task 1 50 .breakOff]
    ∀ key, (start.applyAll events).requests.reverse.filter
      (fun request => request.key? = some key) <+:
        [.put key RunConfig.default.value RunConfig.default.ttl, .get key] := by
  obtain ⟨plans, h⟩ := Plan.ofConfig_default
  exact ⟨plans, h, (keys_written_then_read h _ _ _).1⟩

end Run

end Cadence
