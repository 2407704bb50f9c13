import Cadence.Proofs.Executor.Accounts
import Cadence.Proofs.Executor.Stage

/-!
# Overload

An executor drops an arrival when it finds no free slot. How many slots are taken follows from
which iterations were joined: those in flight are among the ones started last, as many as there
were ticks since the first that is still in flight. So nothing is dropped as long as every iteration
is joined before its slot is needed again, and the arrival behind a full row of iterations of which
none is joined is dropped.
-/

namespace Cadence

/-- The deeds that answer ticks: the first answers tick zero, the next tick one, and so on. -/
def arrivals (deeds : List Deed) : List Deed := deeds.filter Deed.isArrival

/-- The slots of the iterations that were joined, with an outcome or without. -/
def joins (deeds : List Deed) : List Slot := completions deeds ++ losses deeds

/-- No iteration takes as many ticks as there are workers: whenever a tick is handled, the iteration
that was started as many ticks before has been joined. -/
def Punctual (workers : Nat) (deeds : List Deed) : Prop :=
  ∀ before deed after, deeds = before ++ deed :: after → deed.isArrival = true →
    ∀ tick slot, (arrivals before)[tick]? = some (.started slot) →
      (arrivals before).length = tick + workers → slot ∈ joins before

/-- Whether that is so is seen from the parts in front of the ticks. -/
theorem punctual_iff {workers : Nat} {deeds : List Deed} : Punctual workers deeds ↔
    ∀ i < deeds.length, deeds[i]?.any Deed.isArrival = true →
      workers ≤ (arrivals (deeds.take i)).length →
      ∀ slot ∈ (arrivals (deeds.take i))[(arrivals (deeds.take i)).length - workers]?.bind
        Deed.started?, slot ∈ joins (deeds.take i) := by
  constructor
  · intro punctual i inside answers many slot started
    have parts : deeds = deeds.take i ++ deeds[i] :: deeds.drop (i + 1) := by
      rw [List.getElem_cons_drop, List.take_append_drop]
    rw [List.getElem?_eq_getElem inside] at answers
    obtain ⟨deed, there, found⟩ := Option.bind_eq_some_iff.mp started
    obtain rfl : deed = .started slot := by
      cases deed with
      | started other => exact congrArg Deed.started (Option.some.inj found)
      | _ => cases found
    exact punctual _ _ _ parts answers _ slot there (Nat.sub_add_cancel many).symm
  · rintro each before deed after rfl answers tick slot started count
    have here := each before.length (by simp)
    rw [List.take_left] at here
    refine here (by simpa using answers) (by omega) slot ?_
    rw [count, Nat.add_sub_cancel, started]
    rfl

instance (workers : Nat) (deeds : List Deed) : Decidable (Punctual workers deeds) :=
  decidable_of_iff' _ punctual_iff

@[simp] theorem arrivals_append (first second : List Deed) :
    arrivals (first ++ second) = arrivals first ++ arrivals second := List.filter_append ..

theorem mem_joins_append {slot : Slot} {first : List Deed} (second : List Deed)
    (joined : slot ∈ joins first) : slot ∈ joins (first ++ second) := by
  simp only [joins, completions_append, losses_append, List.mem_append] at joined ⊢
  exact joined.imp Or.inl Or.inl

/-- Iterations are started by the deeds that answer ticks. -/
theorem starts_arrivals (deeds : List Deed) : starts (arrivals deeds) = starts deeds := by
  unfold starts arrivals
  rw [List.filterMap_filter]
  apply List.filterMap_congr
  intro deed _
  cases deed <;> rfl

/-- Where nothing is dropped, every tick is answered by a start. -/
theorem arrivals_eq_of_not_dropped {deeds : List Deed} (none : .dropped ∉ deeds) :
    arrivals deeds = (starts deeds).map .started := by
  induction deeds with
  | nil => rfl
  | cons deed deeds ih =>
    obtain ⟨kept, others⟩ := List.ne_and_not_mem_of_not_mem_cons none
    have ih := ih others
    cases deed with
    | dropped => exact absurd rfl kept
    | started slot => exact congrArg (List.cons (.started slot)) ih
    | completed slot outcome => exact ih
    | lost slot => exact ih
    | abandoned slots => exact ih

/-- Nothing has been dropped, and all is joined that was to be joined by the last tick. -/
structure InTurn (workers : Nat) (deeds : List Deed) : Prop where
  none : .dropped ∉ deeds
  joined : ∀ tick slot, (starts deeds)[tick]? = some slot →
    tick + workers < (starts deeds).length → slot ∈ joins deeds

theorem inTurn_nil (workers : Nat) : InTurn workers [] := ⟨nofun, nofun⟩

/-- What is to be joined by the next tick, if that is handled in time. -/
theorem InTurn.due {workers : Nat} {deeds : List Deed} {deed : Deed} (h : InTurn workers deeds)
    (punctual : Punctual workers (deeds ++ [deed])) (answers : deed.isArrival = true) (tick : Nat)
    (slot : Slot) (started : (starts deeds)[tick]? = some slot)
    (late : tick + workers ≤ (starts deeds).length) : slot ∈ joins deeds := by
  rcases Nat.lt_or_eq_of_le late with late | now
  · exact h.joined tick slot started late
  · refine punctual deeds deed [] rfl answers tick slot ?_ ?_
    · rw [arrivals_eq_of_not_dropped h.none, List.getElem?_map, started]
      rfl
    · rw [arrivals_eq_of_not_dropped h.none, List.length_map, now]

theorem InTurn.start {workers : Nat} {deeds : List Deed} (h : InTurn workers deeds) (slot : Slot)
    (someWorker : 0 < workers) (due : ∀ tick slot, (starts deeds)[tick]? = some slot →
      tick + workers ≤ (starts deeds).length → slot ∈ joins deeds) :
    InTurn workers (deeds ++ [.started slot]) := by
  refine ⟨by simp [h.none], fun tick other started late => ?_⟩
  have late : tick + workers < (starts deeds).length + 1 := by
    simpa [Deed.started?] using late
  rw [starts_append, List.getElem?_append_left (by omega)] at started
  exact mem_joins_append _ (due tick other started (by omega))

theorem InTurn.other {workers : Nat} {deeds : List Deed} {deed : Deed} (h : InTurn workers deeds)
    (other : deed.isArrival = false) : InTurn workers (deeds ++ [deed]) := by
  have same : starts (deeds ++ [deed]) = starts deeds := by
    cases deed with
    | started slot => cases other
    | _ => simp [Deed.started?]
  refine ⟨?_, fun tick slot started late => ?_⟩
  · cases deed with
    | dropped => cases other
    | _ => simp [h.none]
  · rw [same] at started late
    exact mem_joins_append _ (h.joined tick slot started late)

theorem Punctual.of_append {workers : Nat} {first second : List Deed}
    (h : Punctual workers (first ++ second)) : Punctual workers first := by
  rintro before deed after rfl
  exact h before deed (after ++ second) (by simp)

namespace Executor

variable {plan : Plan} {executor : Executor} {deeds : List Deed} {choice : Choice}

/-- An arrival is dropped by a tick that finds no free slot. -/
theorem full_of_dropped (dropped : executor.deed? choice = some .dropped) :
    choice = .tick ∧ executor.stage = .dispatching ∧ executor.free = [] := by
  have joined (worker : Nat) : (executor.landings.find? fun landing =>
      landing.slot.worker == worker).map Landing.deed ≠ some .dropped := by
    rw [Ne, Option.map_eq_some_iff]
    rintro ⟨⟨slot, outcome⟩, -, deed⟩
    cases outcome <;> cases deed
  unfold deed? at dropped
  split at dropped
  next dispatching =>
    split at dropped
    next full => exact ⟨rfl, dispatching, full⟩
    next => cases dropped
  next worker _ => exact absurd dropped (joined worker)
  next worker _ => exact absurd dropped (joined worker)
  next => cases dropped
  next => cases dropped

/-- Every iteration that was started and not joined is in flight, as long as the grace period is not
over. -/
theorem Balanced.mem_pending (h : Balanced plan executor deeds)
    (going : ∀ slots, .abandoned slots ∉ deeds) {slot : Slot} (started : slot ∈ starts deeds)
    (unjoined : slot ∉ joins deeds) : slot ∈ executor.pending := by
  have none := abandonments_eq_nil going
  have flow := h.flow.mem_iff.mp started
  simp only [joins, none, List.nil_append, List.mem_append, not_or] at flow unjoined
  exact (flow.resolve_left unjoined.1).resolve_left unjoined.2

/-- If the iterations that were started first are joined, those in flight are among the others. -/
theorem Balanced.length_pending_le (h : Balanced plan executor deeds)
    (numbered : Numbered plan executor deeds) {count : Nat}
    (joined : ∀ slot ∈ (starts deeds).take count, slot ∈ joins deeds) :
    executor.pending.length ≤ (starts deeds).length - count := by
  have parts := h.flow.nodup_iff.mp numbered.starts_nodup
  rw [← List.append_assoc] at parts
  have apart := List.disjoint_of_nodup_append parts
  have flying : executor.pending.Nodup :=
    parts.sublist ((List.sublist_append_right _ _).trans (List.sublist_append_right _ _))
  have rest : executor.pending ⊆ (starts deeds).drop count := by
    intro slot pending
    have started : slot ∈ starts deeds := h.flow.mem_iff.mpr (by simp [pending])
    rw [← List.take_append_drop count (starts deeds), List.mem_append] at started
    refine started.resolve_left fun early => ?_
    exact apart (joined slot early) (List.mem_append_right _ pending)
  simpa using (flying.subperm rest).length_le

/-- If all iterations are joined but for the last ones, and those are fewer than there are workers,
some worker has nothing to do. -/
theorem Balanced.length_pending_lt (h : Balanced plan executor deeds)
    (numbered : Numbered plan executor deeds) {workers : Nat} (someWorker : 0 < workers)
    (joined : ∀ tick slot, (starts deeds)[tick]? = some slot →
      tick + workers ≤ (starts deeds).length → slot ∈ joins deeds) :
    executor.pending.length < workers := by
  have first : ∀ slot ∈ (starts deeds).take ((starts deeds).length + 1 - workers),
      slot ∈ joins deeds := by
    intro slot early
    obtain ⟨tick, before, started⟩ := List.mem_take_iff_getElem.mp early
    exact joined tick slot (List.getElem?_eq_some_iff.mpr ⟨by omega, started⟩) (by omega)
  have most := h.length_pending_le numbered first
  omega

/-- The iterations of a row of ticks are all in flight if none of them has been joined. -/
theorem Balanced.length_row_le (h : Balanced plan executor deeds)
    (numbered : Numbered plan executor deeds) (going : ∀ slots, .abandoned slots ∉ deeds)
    {tick workers : Nat} (count : (arrivals deeds).length = tick + workers)
    (row : ∀ offset < workers, ∃ slot,
      (arrivals deeds)[tick + offset]? = some (.started slot) ∧ slot ∉ joins deeds) :
    workers ≤ executor.pending.length := by
  have each : ∀ deed ∈ (arrivals deeds).drop tick, ∃ slot,
      deed = .started slot ∧ slot ∉ joins deeds := by
    intro deed member
    obtain ⟨offset, inside, rfl⟩ := List.getElem_of_mem member
    rw [List.length_drop, count, Nat.add_sub_cancel_left] at inside
    obtain ⟨slot, started, unjoined⟩ := row offset inside
    refine ⟨slot, ?_, unjoined⟩
    rw [List.getElem_drop]
    exact (List.getElem?_eq_some_iff.mp started).2
  have length : (starts ((arrivals deeds).drop tick)).length = workers := by
    have all : (starts ((arrivals deeds).drop tick)).length =
        ((arrivals deeds).drop tick).length := by
      refine List.filterMap_length_eq_length.mpr fun deed member => ?_
      obtain ⟨slot, rfl, -⟩ := each deed member
      rfl
    rw [all, List.length_drop, count, Nat.add_sub_cancel_left]
  have part : (starts ((arrivals deeds).drop tick)).Sublist (starts deeds) := by
    rw [← starts_arrivals deeds]
    exact (List.drop_sublist _ _).filterMap _
  have flying : starts ((arrivals deeds).drop tick) ⊆ executor.pending := by
    intro slot member
    obtain ⟨deed, inside, started⟩ := List.mem_filterMap.mp member
    obtain ⟨other, rfl, unjoined⟩ := each deed inside
    obtain rfl : other = slot := Option.some.inj started
    exact h.mem_pending going (part.subset member) unjoined
  rw [← length]
  exact ((numbered.starts_nodup.sublist part).subperm flying).length_le

section Events

variable {cell : StopCell} {events : List LaneEvent}

/-- As many ticks have been handled as there are deeds that answer one. -/
theorem ticks_eq_length_arrivals (plan : Plan) (cell : StopCell) (events : List LaneEvent) :
    ((subscribe plan cell).applyAll events).ticks =
      (arrivals ((subscribe plan cell).deeds events)).length := by
  refine history_induction (motive := fun executor deeds _ =>
    executor.ticks = (arrivals deeds).length) rfl ?_ ?_ events
  · intro executor deeds legs deed next same turn
    rw [turn.ticks, same, arrivals_append, List.length_append]
    cases deed with
    | none => rfl
    | some deed => cases deed <;> rfl
  · intro executor deeds legs worker stimulus leg next same nudge
    rw [nudge.frame.2.2.1, same]

/-- As long as an executor dispatches, no slot is missing but those that were lost. -/
theorem pool_of_dispatching
    (dispatching : ((subscribe plan cell).applyAll events).stage = .dispatching) :
    (∀ slots, .abandoned slots ∉ (subscribe plan cell).deeds events) ∧
      ((subscribe plan cell).applyAll events).free.length +
        ((subscribe plan cell).applyAll events).pending.length +
        (losses ((subscribe plan cell).deeds events)).length = plan.workers := by
  have going : ∀ slots, .abandoned slots ∉ (subscribe plan cell).deeds events :=
    not_abandoned_of_ne_ended (by simp [dispatching])
  exact ⟨going, (balanced_applyAll plan cell events).pool going⟩

/-- An arrival is dropped only when all slots are in flight but those that were lost. -/
theorem inFlight_of_dropped
    (dropped : ((subscribe plan cell).applyAll events).deed? choice = some .dropped) :
    ((subscribe plan cell).applyAll events).inFlight +
      (losses ((subscribe plan cell).deeds events)).length = plan.workers := by
  obtain ⟨-, dispatching, full⟩ := full_of_dropped dropped
  obtain ⟨-, pool⟩ := pool_of_dispatching dispatching
  rw [full, List.length_nil, Nat.zero_add] at pool
  rwa [inFlight_eq_length_pending]

theorem deed?_of_event {executor : Executor} {event : LaneEvent}
    (dropped : executor.eventDeed? event = some .dropped) :
    ∃ choice, executor.deed? choice = some .dropped := by
  cases event with
  | step cell choice => exact ⟨choice, dropped⟩
  | task worker stimulus => cases dropped

/-- Nothing is dropped in a sequence of events in which no iteration is lost and each is joined
before its slot is needed again. -/
theorem inTurn_of_punctual (someWorker : 0 < plan.workers)
    (whole : losses ((subscribe plan cell).deeds events) = [])
    (punctual : Punctual plan.workers ((subscribe plan cell).deeds events)) :
    InTurn plan.workers ((subscribe plan cell).deeds events) := by
  induction events using List.reverseRecOn with
  | nil => exact inTurn_nil plan.workers
  | append_singleton events event ih =>
    rw [deeds_concat] at whole punctual ⊢
    have balanced := balanced_applyAll plan cell events
    have numbered := numbered_applyAll plan cell events
    cases done : ((subscribe plan cell).applyAll events).eventDeed? event with
    | none => simpa [done] using ih (by simpa [done] using whole) (by simpa [done] using punctual)
    | some deed =>
      rw [done, Option.toList_some] at whole punctual
      rw [losses_append, List.append_eq_nil_iff] at whole
      have before := ih whole.1 punctual.of_append
      rw [Option.toList_some]
      cases deed with
      | started slot => exact before.start slot someWorker (before.due punctual rfl)
      | dropped =>
        have free := balanced.length_pending_lt numbered someWorker (before.due punctual rfl)
        obtain ⟨choice, dropped⟩ := deed?_of_event done
        have pool := inFlight_of_dropped dropped
        rw [whole.1, List.length_nil, inFlight_eq_length_pending] at pool
        exact absurd pool (Nat.ne_of_lt free)
      | completed slot outcome => exact before.other rfl
      | lost slot => exact before.other rfl
      | abandoned slots => exact before.other rfl

/-- The tick behind a row of iterations as long as there are workers finds no free slot, if none of
them has been joined. -/
theorem dropped_of_unjoined
    (dispatching : ((subscribe plan cell).applyAll events).stage = .dispatching) {tick : Nat}
    (count : (arrivals ((subscribe plan cell).deeds events)).length = tick + plan.workers)
    (row : ∀ offset < plan.workers, ∃ slot,
      (arrivals ((subscribe plan cell).deeds events))[tick + offset]? = some (.started slot) ∧
        slot ∉ joins ((subscribe plan cell).deeds events)) :
    ((subscribe plan cell).applyAll events).deed? .tick = some .dropped := by
  obtain ⟨going, pool⟩ := pool_of_dispatching dispatching
  have balanced := balanced_applyAll plan cell events
  have numbered := numbered_applyAll plan cell events
  have all := balanced.length_row_le numbered going count row
  have full : ((subscribe plan cell).applyAll events).free = [] :=
    List.length_eq_zero_iff.mp (by omega)
  simp [deed?, dispatching, full]

end Events

end Executor

end Cadence
