import Cadence.Proofs.Executor.Heed

/-!
# No stop is lost

An executor watches the stop cell while others ask for stops. It subscribes, looks at the cell
once, and then goes round by round: it chooses the step that comes first, and does it. Between any
two of these moments a stop may be asked for, also between the choice of a step and the step, and
whoever could ask for one may go away. A round that begins when there is a reason comes to the
deadline or to a look at the cell, but to no arrival.
-/

namespace Cadence

/-- An executor, the stop cell that it watches, and the round that it is in. -/
structure Vigil where
  cell : StopCell
  executor : Executor
  round : Option Round

/-- What happens around an executor and its stop cell. -/
inductive VigilEvent where
  | stop (reason : String)
  /-- Nobody is left who could ask for a stop. -/
  | close
  /-- A round begins: the executor chooses the step that comes first, if it can do any. -/
  | choose (due : Due)
  /-- The executor does the step it has chosen, with the cell as it has become meanwhile. -/
  | act
  /-- The iteration of a worker goes on. -/
  | task (worker : Nat) (stimulus : Stimulus)

namespace Vigil

/-- An executor subscribes to a cell, in which a stop may have been asked for before. -/
def start (plan : Plan) (cell : StopCell) : Vigil := ⟨cell, .subscribe plan cell, none⟩

/-- A round begins, unless there is one. -/
def choose (vigil : Vigil) (due : Due) : Vigil :=
  match vigil.round with
  | some _ => vigil
  | none => { vigil with round := (vigil.executor.choose vigil.cell due).map (⟨due, ·⟩) }

/-- The step of the round is done. -/
def act (vigil : Vigil) : Vigil :=
  match vigil.round with
  | none => vigil
  | some round =>
    { vigil with
      executor := (vigil.executor.perform vigil.cell round.choice).1
      round := none }

def apply (vigil : Vigil) : VigilEvent → Vigil
  | .stop reason => { vigil with cell := (StopChange.ask reason).apply vigil.cell }
  | .close => { vigil with cell := StopChange.close.apply vigil.cell }
  | .choose due => vigil.choose due
  | .act => vigil.act
  | .task worker stimulus =>
    { vigil with executor := (vigil.executor.stimulate worker stimulus).1 }

/-- The vigil after a sequence of events. -/
def applyAll (vigil : Vigil) (events : List VigilEvent) : Vigil := events.foldl apply vigil

/-- What every event keeps, a sequence of events keeps. -/
theorem applyAll_keeps {motive : Vigil → Prop}
    (step : ∀ vigil event, motive vigil → motive (apply vigil event)) {vigil : Vigil}
    (holds : motive vigil) (events : List VigilEvent) : motive (vigil.applyAll events) :=
  List.foldlRecOn events apply holds fun vigil holds event _ => step vigil event holds

/-- Whether the executor is in a round in which it handles an arrival. -/
def arriving (vigil : Vigil) : Bool := vigil.round.any (·.choice == .tick)

/-- What holds at every moment. -/
structure Alert (vigil : Vigil) : Prop where
  heeds : vigil.executor.Heeds vigil.cell
  round : ∀ round, vigil.round = some round → round.Meets vigil.cell vigil.executor

variable {vigil : Vigil}

theorem choose_of_some {round : Round} (began : vigil.round = some round) (due : Due) :
    vigil.choose due = vigil := by
  rw [choose, began]

theorem choose_of_none (resting : vigil.round = none) (due : Due) :
    vigil.choose due =
      { vigil with round := (vigil.executor.choose vigil.cell due).map (⟨due, ·⟩) } := by
  rw [choose, resting]

@[simp] theorem executor_choose (vigil : Vigil) (due : Due) :
    (vigil.choose due).executor = vigil.executor := by
  unfold choose
  split <;> rfl

@[simp] theorem cell_choose (vigil : Vigil) (due : Due) :
    (vigil.choose due).cell = vigil.cell := by
  unfold choose
  split <;> rfl

/-- The round that begins when there is none. -/
theorem round_choose (resting : vigil.round = none) {due : Due} {choice : Choice}
    (chosen : vigil.executor.choose vigil.cell due = some choice) :
    (vigil.choose due).round = some ⟨due, choice⟩ := by
  rw [choose_of_none resting, chosen]
  rfl

theorem act_of_some {round : Round} (began : vigil.round = some round) :
    vigil.act = { vigil with
      executor := (vigil.executor.perform vigil.cell round.choice).1, round := none } := by
  rw [act, began]

theorem act_of_none (resting : vigil.round = none) : vigil.act = vigil := by
  rw [act, resting]

theorem alert_start (plan : Plan) (cell : StopCell) : Alert (start plan cell) :=
  ⟨Executor.heeds_subscribe plan cell, nofun⟩

theorem Alert.apply (alert : Alert vigil) (event : VigilEvent) : Alert (vigil.apply event) := by
  cases event with
  | stop reason =>
    exact ⟨alert.heeds.stop reason, fun round began =>
      alert.heeds.meets_stop (alert.round round began) reason⟩
  | close =>
    have closed : (vigil.apply .close).cell.closed = true := by
      rw [Vigil.apply, StopChange.close_apply]
    obtain ⟨fresh, calm, warned, -⟩ := alert.heeds
    refine ⟨?_, fun round began => ?_⟩
    · simp only [Vigil.apply, StopChange.close_apply]
      exact ⟨fresh, calm, warned, fun _ => rfl⟩
    · have meets := alert.round round began
      exact ⟨meets.tick, fun _ => Or.inl closed, meets.deadline⟩
  | choose due =>
    cases began : vigil.round with
    | some round => rwa [Vigil.apply, choose_of_some began]
    | none =>
      rw [Vigil.apply, choose_of_none began]
      refine ⟨alert.heeds, fun round chosen => ?_⟩
      obtain ⟨choice, first, rfl⟩ := Option.map_eq_some_iff.mp chosen
      exact Executor.meets_of_choose first
  | act =>
    cases began : vigil.round with
    | none => rwa [Vigil.apply, act_of_none began]
    | some round =>
      rw [Vigil.apply, act_of_some began]
      exact ⟨alert.heeds.perform (alert.round round began), nofun⟩
  | task worker stimulus =>
    have nudge := Executor.nudge_stimulate vigil.executor worker stimulus
    refine ⟨alert.heeds.nudge nudge, fun round began => ?_⟩
    obtain ⟨stage, seen, -⟩ := nudge.vigil
    have meets := alert.round round began
    refine ⟨?_, ?_, meets.deadline⟩
    · simpa only [Vigil.apply, stage] using meets.tick
    · simpa only [Vigil.apply, seen] using meets.look

theorem Alert.applyAll (alert : Alert vigil) (events : List VigilEvent) :
    Alert (vigil.applyAll events) :=
  applyAll_keeps (fun _ event alert => alert.apply event) alert events

/-- What one event does to the executor: a step of a round, or nothing that matters here. -/
theorem executor_apply (vigil : Vigil) (event : VigilEvent) :
    (∃ round, event = .act ∧ vigil.round = some round ∧ (vigil.apply event).executor =
      (vigil.executor.perform vigil.cell round.choice).1) ∨
    (vigil.apply event).executor.stage = vigil.executor.stage ∧
      (vigil.apply event).executor.counters = vigil.executor.counters := by
  cases event with
  | stop reason => exact Or.inr ⟨rfl, rfl⟩
  | close => exact Or.inr ⟨rfl, rfl⟩
  | choose due =>
    unfold apply choose
    dsimp only
    split <;> exact Or.inr ⟨rfl, rfl⟩
  | act =>
    cases began : vigil.round with
    | none =>
      rw [apply, act_of_none began]
      exact Or.inr ⟨rfl, rfl⟩
    | some round =>
      rw [apply, act_of_some began]
      exact Or.inl ⟨round, rfl, rfl, rfl⟩
  | task worker stimulus =>
    obtain ⟨stage, -, -, counters⟩ :=
      (Executor.nudge_stimulate vigil.executor worker stimulus).vigil
    exact Or.inr ⟨stage, counters⟩

/-- A reason stays. -/
theorem isStopped_apply (stopped : vigil.cell.isStopped = true) (event : VigilEvent) :
    (vigil.apply event).cell.isStopped = true := by
  cases event with
  | stop reason =>
    rcases StopChange.ask_cases reason vigil.cell with same | ⟨-, unstopped, -⟩
    · rwa [apply, same]
    · cases stopped.symm.trans unstopped
  | close => rwa [apply, StopChange.close_apply]
  | choose due =>
    unfold apply choose
    dsimp only
    split <;> exact stopped
  | act =>
    unfold apply act
    dsimp only
    split <;> exact stopped
  | task worker stimulus => exact stopped

theorem hasLeft_apply (left : vigil.executor.hasLeft = true) (event : VigilEvent) :
    (vigil.apply event).executor.hasLeft = true := by
  rcases executor_apply vigil event with ⟨round, -, -, performed⟩ | ⟨stage, -⟩
  · rw [performed, Executor.hasLeft_perform, left, Bool.true_or]
  · rwa [Executor.hasLeft, stage]

theorem hasLeft_applyAll (left : vigil.executor.hasLeft = true) (events : List VigilEvent) :
    (vigil.applyAll events).executor.hasLeft = true :=
  applyAll_keeps (motive := (·.executor.hasLeft = true))
    (fun _ event left => hasLeft_apply left event) left events

/-- Once there is a reason, an executor that does not dispatch does not begin to. -/
theorem stage_apply_ne (stopped : vigil.cell.isStopped = true)
    (away : vigil.executor.stage ≠ .dispatching) (event : VigilEvent) :
    (vigil.apply event).executor.stage ≠ .dispatching := by
  rcases executor_apply vigil event with ⟨round, -, -, performed⟩ | ⟨stage, -⟩
  · rw [performed]
    exact fun dispatching => away (Executor.dispatching_of_perform stopped dispatching)
  · rwa [stage]

theorem stage_applyAll_ne (stopped : vigil.cell.isStopped = true)
    (away : vigil.executor.stage ≠ .dispatching) (events : List VigilEvent) :
    (vigil.applyAll events).executor.stage ≠ .dispatching :=
  (applyAll_keeps (motive := fun vigil => vigil.cell.isStopped = true ∧
      vigil.executor.stage ≠ .dispatching)
    (fun _ event h => ⟨isStopped_apply h.1 event, stage_apply_ne h.1 h.2 event⟩)
    ⟨stopped, away⟩ events).2

/-- Once there is a reason, a round that begins while the executor dispatches comes to the deadline
or to a look at the cell. -/
theorem Alert.choose_eq (alert : Alert vigil) (stopped : vigil.cell.isStopped = true)
    (dispatching : vigil.executor.stage = .dispatching) (due : Due) :
    vigil.executor.choose vigil.cell due = some (if due.deadline then .deadline else .look) :=
  Executor.choose_of_changed dispatching (alert.heeds.warned dispatching stopped).1
    (alert.heeds.warned dispatching stopped).2 due

/-- Counts go up only. -/
theorem counts_apply (vigil : Vigil) (event : VigilEvent) :
    vigil.executor.counters.dispatched ≤ (vigil.apply event).executor.counters.dispatched ∧
      vigil.executor.counters.dropped ≤ (vigil.apply event).executor.counters.dropped := by
  rcases executor_apply vigil event with ⟨round, -, -, performed⟩ | ⟨-, counters⟩
  · rw [performed]
    obtain ⟨dispatched, dropped, -⟩ :=
      (Executor.perform_turn vigil.executor vigil.cell round.choice).counts
    exact ⟨dispatched, dropped⟩
  · rw [counters]
    exact ⟨Nat.le_refl _, Nat.le_refl _⟩

theorem counts_applyAll (vigil : Vigil) (events : List VigilEvent) :
    vigil.executor.counters.dispatched ≤ (vigil.applyAll events).executor.counters.dispatched ∧
      vigil.executor.counters.dropped ≤ (vigil.applyAll events).executor.counters.dropped :=
  applyAll_keeps (motive := fun later =>
      vigil.executor.counters.dispatched ≤ later.executor.counters.dispatched ∧
        vigil.executor.counters.dropped ≤ later.executor.counters.dropped)
    (fun later event h => ⟨Nat.le_trans h.1 (counts_apply later event).1,
      Nat.le_trans h.2 (counts_apply later event).2⟩)
    ⟨Nat.le_refl _, Nat.le_refl _⟩ events

/-- Once there is a reason, no round begins in which an arrival is handled: those handled already
and the one of the round that is going on are all there will be. -/
theorem Alert.handled_apply (alert : Alert vigil) (stopped : vigil.cell.isStopped = true)
    (event : VigilEvent) :
    (vigil.apply event).executor.handled + (vigil.apply event).arriving.toNat ≤
      vigil.executor.handled + vigil.arriving.toNat := by
  cases event with
  | stop reason => exact Nat.le_refl _
  | close => exact Nat.le_refl _
  | choose due =>
    rw [Vigil.apply]
    cases began : vigil.round with
    | some round => exact (choose_of_some began due).symm ▸ Nat.le_refl _
    | none =>
      rw [choose_of_none began]
      refine Nat.add_le_add_left ?_ _
      cases chosen : vigil.executor.choose vigil.cell due with
      | none => exact Nat.zero_le _
      | some choice =>
        have other : choice ≠ .tick := by
          intro tick
          have dispatching := (Executor.meets_of_choose chosen).tick tick
          have first := chosen.symm.trans (alert.choose_eq stopped dispatching due)
          rw [tick, Option.some_inj] at first
          split at first <;> cases first
        simp [arriving, beq_eq_false_iff_ne.mpr other]
  | act =>
    rw [Vigil.apply]
    cases began : vigil.round with
    | none => exact (act_of_none began).symm ▸ Nat.le_refl _
    | some round =>
      rw [act_of_some began]
      simpa [arriving, began] using
        Executor.handled_perform_le vigil.executor vigil.cell round.choice
  | task worker stimulus =>
    obtain ⟨-, -, -, counters⟩ :=
      (Executor.nudge_stimulate vigil.executor worker stimulus).vigil
    have same : (vigil.apply (.task worker stimulus)).executor.handled =
        vigil.executor.handled := by
      rw [Executor.handled, Executor.handled, Vigil.apply, counters]
    rw [same]
    exact Nat.le_refl _

theorem Alert.handled_applyAll (alert : Alert vigil) (stopped : vigil.cell.isStopped = true)
    (events : List VigilEvent) :
    (vigil.applyAll events).executor.handled ≤
      vigil.executor.handled + vigil.arriving.toNat := by
  induction events generalizing vigil with
  | nil => exact Nat.le_add_right _ _
  | cons event events ih =>
    exact Nat.le_trans (ih (alert.apply event) (isStopped_apply stopped event))
      (alert.handled_apply stopped event)

/-- A round is going on that ends the dispatching, or keeps it from beginning. -/
def Leaving (vigil : Vigil) : Prop :=
  ∃ round, vigil.round = some round ∧
    (vigil.executor.stage = .dispatching ∧ round.choice = .deadline ∨
      vigil.cell.isStopped = true ∧
        (vigil.executor.stage = .idle ∧ round.choice = .enter ∨
          vigil.executor.stage = .dispatching ∧ round.choice = .look))

theorem Leaving.act (leaving : Leaving vigil) (alert : Alert vigil) :
    (vigil.apply .act).executor.hasLeft = true := by
  obtain ⟨round, began, reason⟩ := leaving
  rw [apply, act_of_some began, Executor.hasLeft_perform]
  rcases reason with ⟨stage, choice⟩ | ⟨stopped, ⟨stage, choice⟩ | ⟨stage, choice⟩⟩
  · simp [Executor.leave?, stage, choice]
  · simp [Executor.leave?, stage, choice, stopped]
  · have unseen := (alert.heeds.warned stage stopped).1
    simp [Executor.leave?, stage, choice, stopped, unseen]

/-- Such a round stays as it is until its step is done. -/
theorem Leaving.apply (leaving : Leaving vigil) {event : VigilEvent} (other : event ≠ .act) :
    Leaving (vigil.apply event) := by
  obtain ⟨round, began, reason⟩ := leaving
  have stage : (vigil.apply event).executor.stage = vigil.executor.stage := by
    rcases executor_apply vigil event with ⟨_, act, -⟩ | ⟨stage, -⟩
    · exact absurd act other
    · exact stage
  have round' : (vigil.apply event).round = some round := by
    cases event with
    | choose due => rwa [Vigil.apply, choose_of_some began]
    | act => exact absurd rfl other
    | stop reason => exact began
    | close => exact began
    | task worker stimulus => exact began
  refine ⟨round, round', ?_⟩
  rw [stage]
  exact reason.imp_right (And.imp_left fun stopped => isStopped_apply stopped event)

theorem Leaving.applyAll (leaving : Leaving vigil) (alert : Alert vigil)
    {events : List VigilEvent} (done : .act ∈ events) :
    (vigil.applyAll events).executor.hasLeft = true := by
  induction events generalizing vigil with
  | nil => cases done
  | cons event events ih =>
    by_cases act : event = .act
    · subst act
      exact hasLeft_applyAll (leaving.act alert) events
    · exact ih (leaving.apply act) (alert.apply event)
        ((List.mem_cons.mp done).resolve_left (Ne.symm act))

/-- Without a reason an executor leaves off only with the step of a round at whose beginning the
deadline was due. -/
theorem Alert.elapsed_of_left (alert : Alert vigil) (unstopped : vigil.cell.isStopped = false)
    {event : VigilEvent} (going : vigil.executor.hasLeft = false)
    (left : (vigil.apply event).executor.hasLeft = true) :
    event = .act ∧ vigil.executor.stage = .dispatching ∧
      ∃ due, vigil.round = some ⟨due, .deadline⟩ ∧ due.deadline = true := by
  rcases executor_apply vigil event with ⟨⟨due, choice⟩, act, began, performed⟩ | ⟨stage, -⟩
  · rw [performed, Executor.hasLeft_perform, going, Bool.false_or] at left
    obtain ⟨dispatching, rfl⟩ := Executor.elapsed_of_leave? unstopped left
    exact ⟨act, dispatching, due, began, (alert.round _ began).deadline rfl⟩
  · rw [Executor.hasLeft, stage] at left
    cases going.symm.trans left

/-- With a reason before it begins, an executor never handles an arrival. -/
theorem Alert.never_of_idle (alert : Alert vigil) (stopped : vigil.cell.isStopped = true)
    (idle : vigil.executor.stage = .idle) (events : List VigilEvent) :
    (vigil.applyAll events).executor.handled = 0 ∧
      (vigil.applyAll events).executor.stage ≠ .dispatching := by
  have away : vigil.executor.stage ≠ .dispatching := by simp [idle]
  have none : vigil.arriving = false := by
    unfold arriving
    cases began : vigil.round with
    | none => rfl
    | some round =>
      have other : round.choice ≠ .tick := fun tick => away ((alert.round round began).tick tick)
      simp [beq_eq_false_iff_ne.mpr other]
  have most := alert.handled_applyAll stopped events
  rw [alert.heeds.fresh idle, none] at most
  exact ⟨Nat.le_zero.mp most, stage_applyAll_ne stopped away events⟩

/-- With a reason before it, a round that begins handles no arrival, and none is handled behind
it. -/
theorem Alert.counts_of_choose (alert : Alert vigil) (stopped : vigil.cell.isStopped = true)
    (dispatching : vigil.executor.stage = .dispatching) (resting : vigil.round = none) (due : Due)
    (events : List VigilEvent) :
    ((vigil.choose due).applyAll events).executor.counters.dispatched =
        vigil.executor.counters.dispatched ∧
      ((vigil.choose due).applyAll events).executor.counters.dropped =
        vigil.executor.counters.dropped := by
  have none : (vigil.choose due).arriving = false := by
    rw [arriving, round_choose resting (alert.choose_eq stopped dispatching due)]
    cases due.deadline <;> rfl
  have chosen : Alert (vigil.choose due) := alert.apply (.choose due)
  have most := chosen.handled_applyAll (by simpa using stopped) events
  obtain ⟨dispatched, dropped⟩ := counts_applyAll (vigil.choose due) events
  simp only [none, Executor.handled, executor_choose, Bool.toNat_false] at most dispatched dropped
  omega

/-- No stop is lost, whatever comes between the moments at which an executor subscribes to the cell,
looks at it, begins a round and does its step. If there is a reason before the executor begins, it
handles no arrival. If there is one later, a round that begins then comes to the deadline or to a
look at the cell, and takes the executor to its drain; no arrival is handled any more, but for the
one of a round that has begun before. Without a reason, be the cell open or closed, the executor
leaves off at its deadline and not else. -/
theorem stop_heeded (plan : Plan) (cell : StopCell) (before : List VigilEvent) :
    let vigil := (start plan cell).applyAll before
    (vigil.cell.isStopped = true → vigil.executor.stage = .idle →
      (∀ events,
        let later := vigil.applyAll events
        later.executor.handled = 0 ∧ later.executor.stage ≠ .dispatching) ∧
      (vigil.round = none → ∀ due, due.clock = true → ∀ events, .act ∈ events →
        ((vigil.choose due).applyAll events).executor.hasLeft = true)) ∧
    (vigil.cell.isStopped = true → vigil.executor.stage = .dispatching →
      (∀ events, (vigil.applyAll events).executor.handled ≤
        vigil.executor.handled + vigil.arriving.toNat) ∧
      (vigil.round = none → ∀ due,
        (vigil.choose due).round = some ⟨due, if due.deadline then .deadline else .look⟩ ∧
        ∀ events,
          let later := (vigil.choose due).applyAll events
          later.executor.counters.dispatched = vigil.executor.counters.dispatched ∧
          later.executor.counters.dropped = vigil.executor.counters.dropped ∧
          (.act ∈ events → later.executor.hasLeft = true))) ∧
    (vigil.cell.isStopped = false → ∀ event, vigil.executor.hasLeft = false →
      (vigil.apply event).executor.hasLeft = true →
      event = .act ∧ vigil.executor.stage = .dispatching ∧
        ∃ due, vigil.round = some ⟨due, .deadline⟩ ∧ due.deadline = true) ∧
    (vigil.executor.stage = .dispatching → vigil.round = none → ∀ due, due.deadline = true →
      ∀ events, .act ∈ events →
        ((vigil.choose due).applyAll events).executor.hasLeft = true) := by
  intro vigil
  have alert : Alert vigil := (alert_start plan cell).applyAll before
  refine ⟨fun stopped idle => ⟨alert.never_of_idle stopped idle, ?_⟩,
    fun stopped dispatching => ⟨alert.handled_applyAll stopped, ?_⟩,
    fun unstopped event => alert.elapsed_of_left unstopped, ?_⟩
  · intro resting due clock events done
    have chosen : vigil.executor.choose vigil.cell due = some .enter := by
      simp [Executor.choose, idle, clock]
    have leaving : Leaving (vigil.choose due) :=
      ⟨_, round_choose resting chosen, Or.inr ⟨by simpa using stopped, by simp [idle]⟩⟩
    exact leaving.applyAll (alert.apply (.choose due)) done
  · intro resting due
    have began := round_choose resting (alert.choose_eq stopped dispatching due)
    refine ⟨began, fun events => ?_⟩
    obtain ⟨dispatched, dropped⟩ :=
      alert.counts_of_choose stopped dispatching resting due events
    refine ⟨dispatched, dropped, fun done => ?_⟩
    have leaving : Leaving (vigil.choose due) := by
      refine ⟨_, began, ?_⟩
      cases due.deadline with
      | true => exact Or.inl ⟨by simpa using dispatching, rfl⟩
      | false => exact Or.inr ⟨by simpa using stopped, Or.inr ⟨by simpa using dispatching, rfl⟩⟩
    exact leaving.applyAll (alert.apply (.choose due)) done
  · intro dispatching resting due late events done
    have chosen : vigil.executor.choose vigil.cell due = some .deadline := by
      simp [Executor.choose, dispatching, late]
    have leaving : Leaving (vigil.choose due) :=
      ⟨_, round_choose resting chosen, Or.inl ⟨by simpa using dispatching, rfl⟩⟩
    exact leaving.applyAll (alert.apply (.choose due)) done

/-- A stop that is asked for between the choice of a tick and the tick: this arrival is the only
one. -/
theorem stop_heeded_amid_tick :
    let ticking : Due := ⟨true, false, true, false⟩
    let vigil := (start ⟨.ping .zero, 100, .ofMillis 10, 1, 0⟩ (.initial none)).applyAll
      [.choose ticking, .act, .choose ticking, .stop "enough"]
    vigil.cell.isStopped = true ∧ vigil.executor.stage = .dispatching ∧
      (vigil.apply .act).executor.handled = 1 ∧
      ∀ events, (vigil.applyAll events).executor.handled ≤ 1 := by
  obtain ⟨-, later, -⟩ := stop_heeded ⟨.ping .zero, 100, .ofMillis 10, 1, 0⟩ (.initial none)
    [.choose ⟨true, false, true, false⟩, .act, .choose ⟨true, false, true, false⟩, .stop "enough"]
  exact ⟨rfl, rfl, rfl, (later rfl rfl).1⟩

end Vigil

end Cadence
