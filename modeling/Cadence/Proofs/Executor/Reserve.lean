import Cadence.Proofs.Executor.Overload
import Cadence.Proofs.Executor.Workers
import Mathlib.Order.Bounds.Basic

/-!
# Workers in reserve

The free slots of an executor are those that were given back, above those that were never taken,
with the lowest worker first. A worker that has done nothing yet is called on only when none of the
others is free. Hence no more workers are used than were ever needed at the same time, slots that
were lost included.
-/

namespace Cadence

/-- The workers of the iterations that were started, in order. -/
def used (deeds : List Deed) : List Nat := (starts deeds).map (·.worker)

/-- The slots of a pool but for the first workers. -/
def Plan.reserve (plan : Plan) (taken : Nat) : List Slot :=
  (List.range' taken (plan.workers - taken)).map fun offset => ⟨plan.firstWorker + offset, 0⟩

@[simp] theorem used_append (first second : List Deed) :
    used (first ++ second) = used first ++ used second := by
  simp [used]

theorem used_singleton (deed : Deed) : used [deed] = deed.started?.toList.map (·.worker) := by
  rw [used, starts_singleton]

/-- A reserve starts with its lowest worker. -/
theorem Plan.reserve_eq_cons {plan : Plan} {taken : Nat} {slot : Slot} {rest : List Slot}
    (first : plan.reserve taken = slot :: rest) :
    taken < plan.workers ∧ slot.worker = plan.firstWorker + taken ∧
      rest = plan.reserve (taken + 1) := by
  unfold reserve at first
  cases count : plan.workers - taken with
  | zero => simp [count] at first
  | succ more =>
    rw [count, List.range'_succ, List.map_cons, List.cons.injEq] at first
    obtain ⟨rfl, rfl⟩ := first
    refine ⟨by omega, rfl, ?_⟩
    rw [reserve, show plan.workers - (taken + 1) = more by omega]

/-- One more element stands behind the different ones if it is not among them. -/
theorem eraseDups_concat (items : List Nat) (item : Nat) :
    (items ++ [item]).eraseDups =
      if item ∈ items then items.eraseDups else items.eraseDups ++ [item] := by
  rw [List.eraseDups_append]
  split
  next known => simp [List.removeAll, known]
  next unknown => simp [List.removeAll, unknown, List.eraseDups_cons]

namespace Executor

/-- The free slots of an executor, as many workers as were ever needed apart: those that were given
back by them, and the others, in order. -/
structure Stacked (plan : Plan) (executor : Executor) (deeds : List Deed) (peak : Nat)
    (returned : List Slot) : Prop where
  free : executor.free = returned ++ plan.reserve peak
  within : peak ≤ plan.workers
  known : ∀ slot ∈ returned, slot.worker ∈ used deeds
  order : (used deeds).eraseDups = List.range' plan.firstWorker peak
  load : executor.pending.length + (losses deeds).length + (abandonments deeds).length +
    returned.length = peak

variable {plan : Plan} {executor next : Executor} {deeds : List Deed} {peak : Nat}
  {returned : List Slot}

theorem stacked_subscribe (plan : Plan) (cell : StopCell) :
    Stacked plan (subscribe plan cell) [] 0 [] where
  free := by simp [subscribe, Plan.reserve, List.range_eq_range']
  within := Nat.zero_le _
  known := nofun
  order := rfl
  load := rfl

theorem Stacked.mem_used_iff (h : Stacked plan executor deeds peak returned) (worker : Nat) :
    worker ∈ used deeds ↔ plan.firstWorker ≤ worker ∧ worker < plan.firstWorker + peak := by
  rw [← List.mem_eraseDups, h.order, List.mem_range'_1]

/-- A slot that was given back goes out again before all others. -/
theorem Stacked.again {slot : Slot} {rest : List Slot}
    (h : Stacked plan executor deeds peak (slot :: rest))
    (nextFree : next.free = rest ++ plan.reserve peak)
    (nextPending : next.pending = slot :: executor.pending) :
    Stacked plan next (deeds ++ [.started slot]) peak rest where
  free := nextFree
  within := h.within
  known other member := by simp [h.known other (List.mem_cons_of_mem _ member)]
  order := by
    have known := h.known slot List.mem_cons_self
    rw [used_append, used_singleton]
    simpa [Deed.started?, eraseDups_concat, known] using h.order
  load := by
    have load := h.load
    simp [nextPending, Deed.lost?, Deed.given] at load ⊢
    omega

/-- With nothing given back the lowest worker of the reserve is called on. -/
theorem Stacked.fresh {slot : Slot} (h : Stacked plan executor deeds peak [])
    (inside : peak < plan.workers) (lowest : slot.worker = plan.firstWorker + peak)
    (nextFree : next.free = plan.reserve (peak + 1))
    (nextPending : next.pending = slot :: executor.pending) :
    Stacked plan next (deeds ++ [.started slot]) (peak + 1) [] where
  free := nextFree
  within := inside
  known := nofun
  order := by
    have unknown : slot.worker ∉ used deeds := by
      rw [h.mem_used_iff]
      omega
    have added : used (deeds ++ [.started slot]) = used deeds ++ [slot.worker] := by
      rw [used_append, used_singleton]
      rfl
    rw [added, eraseDups_concat, if_neg unknown, h.order, lowest, List.range'_concat, Nat.one_mul]
  load := by
    have load := h.load
    simp [nextPending, Deed.lost?, Deed.given] at load ⊢
    omega

/-- What a step does to the free slots. Only a start with nothing given back takes from the
reserve. -/
theorem Stacked.turn (h : Stacked plan executor deeds peak returned)
    (numbered : Numbered plan executor deeds) {deed : Option Deed}
    (turn : Turn executor deed next) :
    (∃ rest, Stacked plan next (deeds ++ deed.toList) peak rest) ∨
      executor.stage = .dispatching ∧ (∃ slot, deed = some (.started slot)) ∧
        Stacked plan next (deeds ++ deed.toList) (peak + 1) [] := by
  cases turn with
  | quiet stage seen watching ending =>
    rw [Option.toList_none, List.append_nil]
    exact Or.inl ⟨returned, h.free, h.within, h.known, h.order, h.load⟩
  | dropped dispatching full =>
    refine Or.inl ⟨returned, h.free, h.within, ?_, ?_, ?_⟩
    · simpa [used_singleton, Deed.started?] using h.known
    · simpa [used_singleton, Deed.started?] using h.order
    · simpa [pending, Deed.lost?, Deed.given] using h.load
  | started dispatching slot rest free =>
    cases returned with
    | cons first others =>
      rw [h.free, List.cons_append, List.cons.injEq] at free
      obtain ⟨rfl, rfl⟩ := free
      exact Or.inl ⟨others, h.again rfl rfl⟩
    | nil =>
      obtain ⟨inside, lowest, reserve⟩ := Plan.reserve_eq_cons (h.free.symm.trans free)
      exact Or.inr ⟨dispatching, ⟨slot, rfl⟩, h.fresh inside lowest reserve rfl⟩
  | completed before after slot outcome stage landed ending =>
    refine Or.inl ⟨⟨slot.worker, slot.iteration + 1⟩ :: returned, ?_, h.within, ?_, ?_, ?_⟩
    · simp [h.free]
    · have pending : slot ∈ executor.pending := by simp [pending, landed]
      have given : slot ∈ starts deeds := by
        rw [numbered.mem_starts_iff, numbered.taken slot (List.mem_append_left _ pending)]
        exact Nat.lt_succ_self _
      have known : slot.worker ∈ used deeds := List.mem_map_of_mem given
      simpa [used_singleton, Deed.started?] using ⟨known, h.known⟩
    · simpa [used_singleton, Deed.started?] using h.order
    · have load := h.load
      simp [pending, landed, Deed.lost?, Deed.given] at load ⊢
      omega
  | lost before after slot stage landed ending =>
    refine Or.inl ⟨returned, h.free, h.within, ?_, ?_, ?_⟩
    · simpa [used_singleton, Deed.started?] using h.known
    · simpa [used_singleton, Deed.started?] using h.order
    · have load := h.load
      simp [pending, landed, Deed.lost?, Deed.given] at load ⊢
      omega
  | abandoned draining =>
    refine Or.inl ⟨returned, h.free, h.within, ?_, ?_, ?_⟩
    · simpa [used_singleton, Deed.started?] using h.known
    · simpa [used_singleton, Deed.started?] using h.order
    · have load := h.load
      simp [giveUp, pending, Deed.lost?, Deed.given] at load ⊢
      omega

theorem Stacked.nudge (h : Stacked plan executor deeds peak returned) {worker : Nat}
    {stimulus : Stimulus} {leg : Option Leg} (nudge : Nudge executor worker stimulus leg next) :
    Stacked plan next deeds peak returned := by
  obtain ⟨-, -, -, free, -⟩ := nudge.frame
  refine ⟨free.trans h.free, h.within, h.known, h.order, ?_⟩
  rw [nudge.pending_perm.length_eq]
  exact h.load

theorem Stacked.apply (h : Stacked plan executor deeds peak returned)
    (numbered : Numbered plan executor deeds) (event : LaneEvent) :
    (∃ rest, Stacked plan (executor.apply event)
        (deeds ++ (executor.eventDeed? event).toList) peak rest) ∨
      executor.stage = .dispatching ∧ (∃ slot, executor.eventDeed? event = some (.started slot)) ∧
        Stacked plan (executor.apply event) (deeds ++ (executor.eventDeed? event).toList)
          (peak + 1) [] := by
  cases event with
  | step now choice => exact h.turn numbered (perform_turn executor now choice)
  | task worker stimulus =>
    refine Or.inl ⟨returned, ?_⟩
    have next := h.nudge (nudge_stimulate executor worker stimulus)
    simpa [Executor.apply, eventDeed?] using next

/-- How many slots are in flight or lost after a sequence of events. -/
def strain (start : Executor) (events : List LaneEvent) : Nat :=
  (start.applyAll events).inFlight + (losses (start.deeds events)).length

/-- The strain at all moments of a sequence of events. -/
def strains (start : Executor) (events : List LaneEvent) : Set Nat :=
  {load | ∃ before, before <+: events ∧ load = start.strain before}

theorem strains_concat (start : Executor) (events : List LaneEvent) (event : LaneEvent) :
    start.strains (events ++ [event]) =
      insert (start.strain (events ++ [event])) (start.strains events) := by
  ext load
  simp only [strains, List.prefix_concat_iff, Set.mem_ofPred_eq, Set.mem_insert_iff]
  constructor
  · rintro ⟨before, rfl | earlier, rfl⟩
    · exact Or.inl rfl
    · exact Or.inr ⟨before, earlier, rfl⟩
  · rintro (rfl | ⟨before, earlier, rfl⟩)
    · exact ⟨_, Or.inl rfl, rfl⟩
    · exact ⟨before, Or.inr earlier, rfl⟩

theorem Stacked.strain_le {start : Executor} {events : List LaneEvent}
    (h : Stacked plan (start.applyAll events) (start.deeds events) peak returned) :
    start.strain events ≤ peak := by
  have load := h.load
  rw [strain, inFlight_eq_length_pending]
  omega

/-- The free slots stay stacked, and as many workers are used as were ever needed at a time. -/
theorem stacked_applyAll (plan : Plan) (cell : StopCell) (events : List LaneEvent) :
    ∃ peak returned, Stacked plan ((subscribe plan cell).applyAll events)
        ((subscribe plan cell).deeds events) peak returned ∧
      IsGreatest ((subscribe plan cell).strains events) peak := by
  induction events using List.reverseRecOn with
  | nil =>
    refine ⟨0, [], stacked_subscribe plan cell, ⟨[], List.prefix_refl _, rfl⟩, ?_⟩
    rintro load ⟨before, nothing, rfl⟩
    rw [List.prefix_nil.mp nothing]
    rfl
  | append_singleton events event ih =>
    obtain ⟨peak, returned, stacked, reached, bound⟩ := ih
    rcases stacked.apply (numbered_applyAll plan cell events) event with
      ⟨rest, next⟩ | ⟨dispatching, ⟨slot, started⟩, next⟩
    · rw [← deeds_concat, ← applyAll_concat] at next
      refine ⟨peak, rest, next, ?_⟩
      rw [strains_concat]
      refine ⟨Or.inr reached, ?_⟩
      rintro load (rfl | earlier)
      · exact next.strain_le
      · exact bound earlier
    · have going : abandonments ((subscribe plan cell).deeds (events ++ [event])) = [] := by
        rw [deeds_concat, started, abandonments_append, abandonments_eq_nil
          (not_abandoned_of_ne_ended (by simp [dispatching]))]
        rfl
      rw [← deeds_concat, ← applyAll_concat] at next
      have load := next.load
      rw [going, List.length_nil, ← inFlight_eq_length_pending] at load
      refine ⟨peak + 1, [], next, ?_⟩
      rw [strains_concat]
      refine ⟨Or.inl load.symm, ?_⟩
      rintro other (rfl | earlier)
      · exact next.strain_le
      · exact (bound earlier).trans (Nat.le_succ peak)

/-- A pool is used from its first worker on, and no further than needed. After any sequence of
events the workers used, in the order in which they were first called on, are the first ones of the
pool, as many as slots were ever in flight or lost at the same time. A worker is called on for the
first time only when no other that has been used is free, and the lowest goes first. -/
theorem lowest_workers_first (plan : Plan) (cell : StopCell) (events : List LaneEvent) :
    let start := subscribe plan cell
    let executor := start.applyAll events
    let deeds := start.deeds events
    ∃ peak, IsGreatest (start.strains events) peak ∧
      (∀ worker, worker ∈ used deeds ↔
        plan.firstWorker ≤ worker ∧ worker < plan.firstWorker + peak) ∧
      (used deeds).eraseDups = List.range' plan.firstWorker peak ∧
      ∀ event slot, executor.eventDeed? event = some (.started slot) → slot.worker ∉ used deeds →
        slot.worker = plan.firstWorker + peak ∧
          ∀ other ∈ executor.free, other.worker ∉ used deeds := by
  intro start executor deeds
  obtain ⟨peak, returned, stacked, greatest⟩ := stacked_applyAll plan cell events
  refine ⟨peak, greatest, stacked.mem_used_iff, stacked.order, fun event slot started unused => ?_⟩
  obtain ⟨-, rest, free⟩ := free_of_started started
  cases returned with
  | cons first others =>
    have same := (List.cons.inj (stacked.free.symm.trans free)).1
    exact absurd (same ▸ stacked.known first List.mem_cons_self) unused
  | nil =>
    obtain ⟨-, lowest, -⟩ := Plan.reserve_eq_cons (stacked.free.symm.trans free)
    refine ⟨lowest, fun other member => ?_⟩
    rw [stacked.free, List.nil_append, Plan.reserve] at member
    obtain ⟨offset, above, rfl⟩ := List.mem_map.mp member
    have above := (List.mem_range'_1.mp above).1
    rw [stacked.mem_used_iff]
    dsimp only
    omega

end Executor

end Cadence
