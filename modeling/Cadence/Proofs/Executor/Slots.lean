import Cadence.Proofs.Executor.Turn
import Mathlib.Data.List.Nodup
import Mathlib.Data.List.Perm.Subperm

/-!
# Slots of executors

A worker has at most one slot at a time, be it free, in flight or abandoned, and the iterations
given to it are numbered from zero without a gap. Hence no two iterations of an executor have the
same slot.
-/

namespace Cadence

namespace Deed

def started? : Deed → Option Slot
  | .started slot => some slot
  | _ => none

def completed? : Deed → Option Slot
  | .completed slot _ => some slot
  | _ => none

def lost? : Deed → Option Slot
  | .lost slot => some slot
  | _ => none

/-- The slots of the iterations that are abandoned. -/
def given : Deed → List Slot
  | .abandoned slots => slots
  | _ => []

end Deed

/-- The slots of the iterations that were started, in order. -/
def starts (deeds : List Deed) : List Slot := deeds.filterMap Deed.started?

/-- The slots of the iterations that were joined with an outcome, in order. -/
def completions (deeds : List Deed) : List Slot := deeds.filterMap Deed.completed?

/-- The slots of the iterations that were joined after they broke off, in order. -/
def losses (deeds : List Deed) : List Slot := deeds.filterMap Deed.lost?

/-- The slots of the iterations that were abandoned when the grace period was over. -/
def abandonments (deeds : List Deed) : List Slot := deeds.flatMap Deed.given

/-- The slots in which a worker has started iterations, in order. -/
def issued (worker : Nat) (deeds : List Deed) : List Slot :=
  (starts deeds).filter fun slot => slot.worker == worker

@[simp] theorem starts_append (first second : List Deed) :
    starts (first ++ second) = starts first ++ starts second := List.filterMap_append

@[simp] theorem completions_append (first second : List Deed) :
    completions (first ++ second) = completions first ++ completions second :=
  List.filterMap_append

@[simp] theorem losses_append (first second : List Deed) :
    losses (first ++ second) = losses first ++ losses second := List.filterMap_append

@[simp] theorem abandonments_append (first second : List Deed) :
    abandonments (first ++ second) = abandonments first ++ abandonments second :=
  List.flatMap_append

@[simp] theorem starts_singleton (deed : Deed) : starts [deed] = deed.started?.toList := by
  cases deed <;> rfl

@[simp] theorem completions_singleton (deed : Deed) :
    completions [deed] = deed.completed?.toList := by
  cases deed <;> rfl

@[simp] theorem losses_singleton (deed : Deed) : losses [deed] = deed.lost?.toList := by
  cases deed <;> rfl

@[simp] theorem abandonments_singleton (deed : Deed) : abandonments [deed] = deed.given := by
  simp [abandonments]

@[simp] theorem issued_append (worker : Nat) (first second : List Deed) :
    issued worker (first ++ second) = issued worker first ++ issued worker second := by
  simp [issued]

/-- Nothing is abandoned before the grace period is over. -/
theorem abandonments_eq_nil {deeds : List Deed} (going : ∀ slots, .abandoned slots ∉ deeds) :
    abandonments deeds = [] := by
  refine List.flatMap_eq_nil_iff.mpr fun deed done => ?_
  cases deed with
  | abandoned slots => exact absurd done (going slots)
  | _ => rfl

/-- Only a start gives a worker an iteration. -/
theorem issued_of_started?_eq_none {deed : Deed} (h : deed.started? = none) (worker : Nat) :
    issued worker [deed] = [] := by
  simp [issued, starts, h]

namespace Executor

/-- All slots that an executor or its abandoned iterations hold. -/
def slots (executor : Executor) : List Slot :=
  executor.free ++ (executor.pending ++ executor.detached.map (·.slot))

/-- The slots of an executor agree with the iterations it has started. -/
structure Numbered (plan : Plan) (executor : Executor) (deeds : List Deed) : Prop where
  distinct : (executor.slots.map (·.worker)).Nodup
  inRange : ∀ slot ∈ executor.slots,
    plan.firstWorker ≤ slot.worker ∧ slot.worker < plan.firstWorker + plan.workers
  /-- A free slot has the number of the next iteration of its worker. -/
  free : ∀ slot ∈ executor.free, (issued slot.worker deeds).length = slot.iteration
  /-- A slot in flight or abandoned has the number of the last iteration of its worker. -/
  taken : ∀ slot ∈ executor.pending ++ executor.detached.map (·.slot),
    (issued slot.worker deeds).length = slot.iteration + 1
  numbered : ∀ worker,
    (issued worker deeds).map (·.iteration) = List.range (issued worker deeds).length
  issuedInRange : ∀ slot ∈ starts deeds,
    plan.firstWorker ≤ slot.worker ∧ slot.worker < plan.firstWorker + plan.workers

variable {plan : Plan} {executor next : Executor} {deeds : List Deed}

theorem slots_subscribe (plan : Plan) (cell : StopCell) :
    (subscribe plan cell).slots =
      (List.range plan.workers).map fun offset => ⟨plan.firstWorker + offset, 0⟩ := by
  simp [slots, pending, subscribe]

theorem numbered_subscribe (plan : Plan) (cell : StopCell) :
    Numbered plan (subscribe plan cell) [] where
  distinct := by
    rw [slots_subscribe, List.map_map]
    refine List.nodup_range.map ?_
    intro first second same
    simpa using same
  inRange slot member := by
    rw [slots_subscribe] at member
    obtain ⟨offset, inside, rfl⟩ := List.mem_map.mp member
    have := List.mem_range.mp inside
    exact ⟨by simp, by simpa using this⟩
  free slot member := by
    obtain ⟨offset, -, rfl⟩ := List.mem_map.mp member
    rfl
  taken slot member := by simp [pending, subscribe] at member
  numbered worker := rfl
  issuedInRange slot member := by simp [starts] at member

theorem workers_subperm (slots : next.slots.Subperm executor.slots) :
    (next.slots.map (·.worker)).Subperm (executor.slots.map (·.worker)) := by
  obtain ⟨kept, perm, sublist⟩ := slots
  exact ⟨kept.map (·.worker), perm.map _, sublist.map _⟩

/-- An executor that gives up slots, or none, and starts no iteration stays numbered. -/
theorem Numbered.mono (h : Numbered plan executor deeds) (deed : Option Deed)
    (quiet : deed.bind Deed.started? = none)
    (workers : (next.slots.map (·.worker)).Subperm (executor.slots.map (·.worker)))
    (free : ∀ slot ∈ next.free, (issued slot.worker deeds).length = slot.iteration)
    (taken : ∀ slot ∈ next.pending ++ next.detached.map (·.slot),
      (issued slot.worker deeds).length = slot.iteration + 1) :
    Numbered plan next (deeds ++ deed.toList) := by
  have same : ∀ worker, issued worker (deeds ++ deed.toList) = issued worker deeds := by
    intro worker
    cases deed with
    | none => simp
    | some deed => simpa using issued_of_started?_eq_none (by simpa using quiet) worker
  have starts : starts (deeds ++ deed.toList) = starts deeds := by
    cases deed with
    | none => simp
    | some deed =>
      have : deed.started? = none := by simpa using quiet
      simp [Cadence.starts, this]
  refine ⟨?_, ?_, ?_, ?_, ?_, ?_⟩
  · obtain ⟨kept, perm, sublist⟩ := workers
    exact perm.nodup_iff.mp (h.distinct.sublist sublist)
  · intro slot member
    have inside := workers.subset (List.mem_map_of_mem member)
    obtain ⟨old, member, worker⟩ := List.mem_map.mp inside
    rw [← worker]
    exact h.inRange old member
  · simpa only [same] using free
  · simpa only [same] using taken
  · simpa only [same] using h.numbered
  · simpa only [starts] using h.issuedInRange

/-- A start takes the first free slot, and gives its worker the next number. -/
theorem Numbered.start (h : Numbered plan executor deeds) {slot : Slot} {rest : List Slot}
    (free : executor.free = slot :: rest) (nextFree : next.free = rest)
    (nextPending : next.pending = slot :: executor.pending)
    (nextDetached : next.detached = executor.detached) :
    Numbered plan next (deeds ++ [.started slot]) := by
  have moved : next.slots.Perm executor.slots := by
    simp only [slots, nextFree, nextPending, nextDetached, free, List.cons_append]
    exact List.perm_middle
  have distinct : (slot.worker :: (rest ++ (executor.pending ++
      executor.detached.map (·.slot))).map (·.worker)).Nodup := by
    simpa [slots, free] using h.distinct
  have other : ∀ held ∈ rest ++ (executor.pending ++ executor.detached.map (·.slot)),
      issued held.worker (deeds ++ [.started slot]) = issued held.worker deeds := by
    intro held member
    have apart : slot.worker ≠ held.worker := by
      intro same
      exact (List.nodup_cons.mp distinct).1 (same ▸ List.mem_map_of_mem member)
    simp [issued, starts, Deed.started?, apart]
  have own : issued slot.worker (deeds ++ [.started slot]) =
      issued slot.worker deeds ++ [slot] := by
    simp [issued, starts, Deed.started?]
  have count := h.free slot (by simp [free])
  have within := h.inRange slot (by simp [slots, free])
  refine ⟨?_, ?_, ?_, ?_, ?_, ?_⟩
  · exact (moved.map _).nodup_iff.mpr h.distinct
  · exact fun held member => h.inRange held (moved.mem_iff.mp member)
  · intro held member
    rw [nextFree] at member
    rw [other held (by simp [member])]
    exact h.free held (by simp [free, member])
  · intro held member
    rw [nextPending, nextDetached, List.cons_append, List.mem_cons] at member
    rcases member with rfl | member
    · rw [own, List.length_append, count]
      rfl
    · rw [other held (List.mem_append_right _ member)]
      exact h.taken held member
  · intro worker
    by_cases same : worker = slot.worker
    · subst same
      rw [own, List.map_append, h.numbered, List.length_append, count]
      exact List.range_succ.symm
    · have unchanged : issued worker (deeds ++ [.started slot]) = issued worker deeds := by
        simp [issued, starts, Deed.started?, Ne.symm same]
      rw [unchanged]
      exact h.numbered worker
  · intro held member
    rw [starts_append, List.mem_append] at member
    rcases member with member | member
    · exact h.issuedInRange held member
    · obtain rfl : held = slot := by simpa [starts, Deed.started?] using member
      exact within

/-- A join with an outcome gives the slot back with the next number. -/
theorem Numbered.complete (h : Numbered plan executor deeds) {slot : Slot} {outcome : Outcome}
    (pending : executor.pending.Perm (slot :: next.pending))
    (nextFree : next.free = ⟨slot.worker, slot.iteration + 1⟩ :: executor.free)
    (nextDetached : next.detached = executor.detached) :
    Numbered plan next (deeds ++ [.completed slot outcome]) := by
  refine h.mono (some (.completed slot outcome)) rfl ?_ ?_ ?_
  · have moved : executor.slots.Perm (slot :: (executor.free ++ (next.pending ++
        executor.detached.map (·.slot)))) :=
      ((pending.append_right _).append_left _).trans List.perm_middle
    have same : next.slots.map (·.worker) = (slot :: (executor.free ++ (next.pending ++
        executor.detached.map (·.slot)))).map (·.worker) := by
      simp [slots, nextFree, nextDetached]
    rw [same]
    exact (moved.map _).symm.subperm
  · intro held member
    rw [nextFree, List.mem_cons] at member
    rcases member with rfl | member
    · exact h.taken slot (List.mem_append_left _ (pending.mem_iff.mpr (by simp)))
    · exact h.free held member
  · intro held member
    rw [nextDetached, List.mem_append] at member
    refine h.taken held (List.mem_append.mpr (member.imp_left fun flying => ?_))
    exact pending.mem_iff.mpr (List.mem_cons_of_mem _ flying)

/-- A slot whose iteration broke off is given up. -/
theorem Numbered.lose (h : Numbered plan executor deeds) {slot : Slot}
    (pending : executor.pending.Perm (slot :: next.pending)) (nextFree : next.free = executor.free)
    (nextDetached : next.detached = executor.detached) :
    Numbered plan next (deeds ++ [.lost slot]) := by
  have fewer : next.pending.Subperm executor.pending :=
    (List.sublist_cons_self _ _).subperm.trans pending.symm.subperm
  refine h.mono (some (.lost slot)) rfl ?_ ?_ ?_
  · have slots : next.slots.Subperm executor.slots := by
      simp only [slots, nextFree, nextDetached]
      exact (List.subperm_append_left _).mpr ((List.subperm_append_right _).mpr fewer)
    exact workers_subperm slots
  · rw [nextFree]
    exact h.free
  · intro held member
    rw [nextDetached, List.mem_append] at member
    exact h.taken held (List.mem_append.mpr (member.imp_left fun flying => fewer.subset flying))

theorem Numbered.turn (h : Numbered plan executor deeds) {deed : Option Deed}
    (turn : Turn executor deed next) : Numbered plan next (deeds ++ deed.toList) := by
  cases turn with
  | quiet stage seen watching ending => exact h.mono _ rfl (.refl _) h.free h.taken
  | dropped dispatching full => exact h.mono _ rfl (.refl _) h.free h.taken
  | started dispatching slot rest free => exact h.start free rfl rfl rfl
  | completed before after slot outcome stage landed ending =>
    exact h.complete (pending_perm_of_landed landed rfl rfl) rfl rfl
  | lost before after slot stage landed ending =>
    exact h.lose (pending_perm_of_landed landed rfl rfl) rfl rfl
  | abandoned draining =>
    have kept : (executor.giveUp.pending ++ executor.giveUp.detached.map (·.slot)).Sublist
        (executor.pending ++ executor.detached.map (·.slot)) := by
      simp only [pending, giveUp, List.map_nil, List.nil_append, List.append_assoc]
      exact List.sublist_append_left _ _
    exact h.mono (some (.abandoned executor.pending)) rfl
      (workers_subperm (kept.append_left executor.free).subperm) h.free
      fun held member => h.taken held (kept.subset member)

/-- An iteration that goes on keeps its slot, or gives it up if it is not observed any more. -/
theorem Nudge.slots_subperm {worker : Nat} {stimulus : Stimulus} {leg : Option Leg}
    (nudge : Nudge executor worker stimulus leg next) :
    (next.pending ++ next.detached.map (·.slot)).Subperm
        (executor.pending ++ executor.detached.map (·.slot)) ∧
      next.slots.Subperm executor.slots := by
  obtain ⟨-, -, -, free, -⟩ := nudge.frame
  have kept : (next.pending ++ next.detached.map (·.slot)).Subperm
      (executor.pending ++ executor.detached.map (·.slot)) :=
    nudge.pending_perm.subperm.append nudge.detached_sublist.subperm
  refine ⟨kept, ?_⟩
  simp only [slots, free]
  exact (List.subperm_append_left _).mpr kept

theorem Numbered.nudge (h : Numbered plan executor deeds) {worker : Nat} {stimulus : Stimulus}
    {leg : Option Leg} (nudge : Nudge executor worker stimulus leg next) :
    Numbered plan next deeds := by
  obtain ⟨-, -, -, free, -⟩ := nudge.frame
  obtain ⟨kept, slots⟩ := nudge.slots_subperm
  have numbered := h.mono none rfl (workers_subperm slots) (free ▸ h.free) fun held member =>
    h.taken held (kept.subset member)
  simpa using numbered

/-- The slots of an executor stay numbered along every sequence of events. -/
theorem numbered_applyAll (plan : Plan) (cell : StopCell) (events : List LaneEvent) :
    Numbered plan ((subscribe plan cell).applyAll events)
      ((subscribe plan cell).deeds events) :=
  history_induction (motive := fun executor deeds _ => Numbered plan executor deeds)
    (numbered_subscribe plan cell) (fun h turn => h.turn turn) (fun h nudge => h.nudge nudge)
    events

/-- The iterations that a worker has started are those below the number of its next one. -/
theorem Numbered.mem_starts_iff (h : Numbered plan executor deeds) (slot : Slot) :
    slot ∈ starts deeds ↔ slot.iteration < (issued slot.worker deeds).length := by
  rw [← List.mem_range, ← h.numbered slot.worker]
  constructor
  · intro member
    exact List.mem_map_of_mem (List.mem_filter.mpr ⟨member, by simp⟩)
  · intro member
    obtain ⟨other, given, iteration⟩ := List.mem_map.mp member
    obtain ⟨given, worker⟩ := List.mem_filter.mp given
    have same : other = slot := by
      obtain ⟨number, counted⟩ := other
      obtain rfl : number = slot.worker := by simpa using worker
      obtain rfl : counted = slot.iteration := iteration
      rfl
    exact same ▸ given

/-- No two iterations have the same slot. -/
theorem Numbered.starts_nodup (h : Numbered plan executor deeds) : (starts deeds).Nodup := by
  rw [List.nodup_iff_count_le_one]
  intro slot
  have own : (issued slot.worker deeds).Nodup := by
    refine List.Nodup.of_map (·.iteration) ?_
    rw [h.numbered]
    exact List.nodup_range
  have count : (issued slot.worker deeds).count slot = (starts deeds).count slot :=
    List.count_filter (by simp)
  rw [← count]
  exact List.nodup_iff_count_le_one.mp own slot

end Executor

end Cadence
