import Cadence.Proofs.Course.Clock
import Cadence.Proofs.Executor.Grounds

/-!
# Sessions

A session is an executor with the stop cell that it watches and the time that passes. Time passes,
the cell changes and iterations go on as they like, also between the choice of a step and the step.
Whatever comes, a round that is going on has its grounds, and the work of the executor is bounded.
-/

namespace Cadence

open Course (tickDue Clocked)
open Executor

/-- An executor that watches a stop cell until its duration is over. -/
structure Session where
  terms : Terms
  /-- Milliseconds since the start. -/
  now : Nat
  vigil : Vigil

/-- What happens in a session. -/
inductive SessionEvent where
  /-- It gets as late as a time, unless it is later already. -/
  | pass (time : Nat)
  | change (change : StopChange)
  /-- A round begins. For an executor that drains its grace period is over or not. -/
  | choose (grace : Bool)
  /-- The executor does the step that it has chosen. -/
  | act
  /-- The iteration of a worker goes on. -/
  | task (worker : Nat) (stimulus : Stimulus)

namespace Session

/-- An executor subscribes to a cell, which may have changed or may be closed. -/
def start (terms : Terms) (plan : Plan) (cell : StopCell) : Session :=
  ⟨terms, 0, .start plan cell⟩

def executor (session : Session) : Executor := session.vigil.executor

/-- Which timers have fired. -/
def due (session : Session) (grace : Bool) : Due where
  clock := session.executor.plan.paceable session.terms.instant session.terms.duration
  deadline := Duration.timerTick session.terms.duration.nanos ≤ session.now
  tick := tickDue session.executor ≤ session.now
  grace := grace

def apply (session : Session) : SessionEvent → Session
  | .pass time => { session with now := max session.now time }
  | .change change =>
    { session with vigil := { session.vigil with cell := change.apply session.vigil.cell } }
  | .choose grace => { session with vigil := session.vigil.choose (session.due grace) }
  | .act => { session with vigil := session.vigil.act }
  | .task worker stimulus => { session with vigil := session.vigil.apply (.task worker stimulus) }

/-- The session after a sequence of events. -/
def applyAll (session : Session) (events : List SessionEvent) : Session :=
  events.foldl apply session

/-- The session after the first events of an endless sequence. -/
def along (session : Session) (schedule : Nat → SessionEvent) : Nat → Session
  | 0 => session
  | count + 1 => (session.along schedule count).apply (schedule count)

/-- What holds at every moment. -/
structure Sound (session : Session) : Prop where
  seen : session.executor.seen ≤ session.vigil.cell.version
  grounds : ∀ round, session.vigil.round = some round →
    Grounds session.terms session.vigil.cell session.executor round.choice
  clocked : Clocked session.terms session.executor
  bounded : Bounded session.terms session.executor

end Session

namespace Executor

variable {terms : Terms} {cell : StopCell} {executor : Executor} {choice : Choice}

/-- An executor that has grounds for its steps fails only where its clock cannot be set up, and then
has done nothing else. -/
theorem Grounds.clocked (grounds : Grounds terms cell executor choice)
    (h : Clocked terms executor) : Clocked terms (executor.perform cell choice).1 := by
  have plan := (perform_turn executor cell choice).plan
  refine ⟨plan ▸ h.period, ?_, ?_⟩
  · rw [plan]
    intro clock failed
    rcases stage_perform executor cell choice with same | left | ⟨idle, -⟩
    · exact h.sound clock (same.symm.trans failed)
    · simp [hasLeft, failed] at left
    · obtain ⟨rfl, -⟩ | ⟨-, broken⟩ := grounds.of_idle idle
      · simp only [perform, idle] at failed
        split at failed
        · simpa [hasLeft, failed] using hasLeft_leave executor
        · cases failed
      · cases clock.symm.trans broken
  · rw [plan]
    intro broken
    obtain ⟨idle | failed, handled⟩ := h.broken broken
    · obtain ⟨-, clock⟩ | ⟨rfl, -⟩ := grounds.of_idle idle
      · cases broken.symm.trans clock
      · simpa [perform, idle, Executor.handled] using handled
    · exact absurd (Or.inr failed) grounds.not_isDone

end Executor

namespace Session

variable {session : Session}

@[simp] theorem applyAll_nil (session : Session) : session.applyAll [] = session := rfl

theorem applyAll_cons (session : Session) (event : SessionEvent) (events : List SessionEvent) :
    session.applyAll (event :: events) = (session.apply event).applyAll events := rfl

@[simp] theorem executor_pass (session : Session) (time : Nat) :
    (session.apply (.pass time)).executor = session.executor := rfl

@[simp] theorem cell_pass (session : Session) (time : Nat) :
    (session.apply (.pass time)).vigil.cell = session.vigil.cell := rfl

@[simp] theorem executor_change (session : Session) (change : StopChange) :
    (session.apply (.change change)).executor = session.executor := rfl

@[simp] theorem cell_change (session : Session) (change : StopChange) :
    (session.apply (.change change)).vigil.cell = change.apply session.vigil.cell := rfl

@[simp] theorem executor_choose (session : Session) (grace : Bool) :
    (session.apply (.choose grace)).executor = session.executor :=
  Vigil.executor_choose session.vigil (session.due grace)

@[simp] theorem cell_choose (session : Session) (grace : Bool) :
    (session.apply (.choose grace)).vigil.cell = session.vigil.cell :=
  Vigil.cell_choose session.vigil (session.due grace)

@[simp] theorem cell_task (session : Session) (worker : Nat) (stimulus : Stimulus) :
    (session.apply (.task worker stimulus)).vigil.cell = session.vigil.cell := rfl

theorem act_of_some {round : Round} (began : session.vigil.round = some round) :
    session.apply .act = { session with
      vigil := { session.vigil with
        executor := (session.executor.perform session.vigil.cell round.choice).1
        round := none } } := by
  rw [apply, Vigil.act_of_some began]
  rfl

theorem executor_act {round : Round} (began : session.vigil.round = some round) :
    (session.apply .act).executor =
      (session.executor.perform session.vigil.cell round.choice).1 := by
  rw [act_of_some began]
  rfl

theorem act_of_none (resting : session.vigil.round = none) : session.apply .act = session := by
  rw [apply, Vigil.act_of_none resting]

theorem choose_of_some {round : Round} (began : session.vigil.round = some round) (grace : Bool) :
    session.apply (.choose grace) = session := by
  rw [apply, Vigil.choose_of_some began]

theorem choose_of_none (resting : session.vigil.round = none) (grace : Bool) :
    session.apply (.choose grace) = { session with
      vigil := { session.vigil with
        round := (session.executor.choose session.vigil.cell (session.due grace)).map
          (⟨session.due grace, ·⟩) } } := by
  rw [apply, Vigil.choose_of_none resting]
  rfl

theorem sound_start (terms : Terms) {plan : Plan} (spaced : 0 < plan.period.nanos)
    (cell : StopCell) : Sound (start terms plan cell) where
  seen := Nat.le_refl _
  grounds := nofun
  clocked :=
    { period := beq_eq_false_iff_ne.mpr (Nat.ne_of_gt spaced)
      sound := nofun
      broken := fun _ => ⟨Or.inl rfl, rfl⟩ }
  bounded := bounded_subscribe terms plan cell

theorem Sound.apply (sound : Sound session) (event : SessionEvent) :
    Sound (session.apply event) := by
  cases event with
  | pass time => exact ⟨sound.seen, sound.grounds, sound.clocked, sound.bounded⟩
  | change change =>
    refine ⟨?_, ?_, sound.clocked, sound.bounded⟩
    · exact Nat.le_trans sound.seen (change.version_le_apply session.vigil.cell)
    · exact fun round began => (sound.grounds round began).change sound.seen change
  | choose grace =>
    cases began : session.vigil.round with
    | some round => rwa [choose_of_some began]
    | none =>
      rw [choose_of_none began]
      refine ⟨sound.seen, fun round chosen => ?_, sound.clocked, sound.bounded⟩
      obtain ⟨choice, first, rfl⟩ := Option.map_eq_some_iff.mp chosen
      exact grounds_of_choose rfl rfl rfl first
  | act =>
    cases began : session.vigil.round with
    | none => rwa [act_of_none began]
    | some round =>
      have grounds := sound.grounds round began
      rw [act_of_some began]
      exact ⟨seen_perform_le sound.seen _, nofun, grounds.clocked sound.clocked,
        sound.bounded.perform grounds⟩
  | task worker stimulus =>
    have nudge := nudge_stimulate session.executor worker stimulus
    obtain ⟨-, seen, -⟩ := nudge.vigil
    refine ⟨?_, ?_, ?_, ?_⟩
    · exact seen ▸ sound.seen
    · exact fun round began => (sound.grounds round began).nudge nudge
    · exact sound.clocked.keep nudge.keeps
    · exact sound.bounded.nudge nudge

theorem Sound.applyAll (sound : Sound session) (events : List SessionEvent) :
    Sound (session.applyAll events) :=
  List.foldlRecOn events Session.apply sound fun _ sound event _ => sound.apply event

/-- Whatever happens, the terms and the plan stay. -/
theorem frame_apply (session : Session) (event : SessionEvent) :
    (session.apply event).terms = session.terms ∧
      (session.apply event).executor.plan = session.executor.plan := by
  cases event with
  | pass time => exact ⟨rfl, rfl⟩
  | change change => exact ⟨rfl, rfl⟩
  | choose grace => exact ⟨rfl, by rw [executor_choose]⟩
  | act =>
    refine ⟨rfl, ?_⟩
    cases began : session.vigil.round with
    | none => rw [act_of_none began]
    | some round =>
      rw [executor_act began]
      exact (perform_turn session.executor session.vigil.cell round.choice).plan
  | task worker stimulus =>
    exact ⟨rfl, (nudge_stimulate session.executor worker stimulus).frame.1⟩

theorem frame_applyAll (session : Session) (events : List SessionEvent) :
    (session.applyAll events).terms = session.terms ∧
      (session.applyAll events).executor.plan = session.executor.plan := by
  induction events generalizing session with
  | nil => exact ⟨rfl, rfl⟩
  | cons event events ih =>
    rw [applyAll_cons, (ih _).1, (ih _).2]
    exact frame_apply session event

theorem frame_along (session : Session) (schedule : Nat → SessionEvent) (moment : Nat) :
    (session.along schedule moment).terms = session.terms ∧
      (session.along schedule moment).executor.plan = session.executor.plan := by
  induction moment with
  | zero => exact ⟨rfl, rfl⟩
  | succ moment ih =>
    obtain ⟨terms, plan⟩ := frame_apply (session.along schedule moment) (schedule moment)
    exact ⟨terms.trans ih.1, plan.trans ih.2⟩

/-- It does not get earlier. -/
theorem now_apply (session : Session) (event : SessionEvent) :
    session.now ≤ (session.apply event).now := by
  cases event with
  | pass time => exact Nat.le_max_left _ _
  | _ => exact Nat.le_refl _

/-- Nothing but the step of a round takes an executor out of its stage. -/
theorem stage_apply (session : Session) {event : SessionEvent} (other : event ≠ .act) :
    (session.apply event).executor.stage = session.executor.stage := by
  cases event with
  | pass time => rfl
  | change change => rfl
  | choose grace => rw [executor_choose]
  | act => exact absurd rfl other
  | task worker stimulus => exact (nudge_stimulate session.executor worker stimulus).frame.2.1

/-- An executor that has begun does not get back to its start, and one that does not dispatch any
more does not begin again. -/
theorem stage_apply_cases (session : Session) (event : SessionEvent) :
    (session.apply event).executor.stage = session.executor.stage ∨
      (session.apply event).executor.hasLeft = true ∨
      session.executor.stage = .idle ∧ (session.apply event).executor.stage ≠ .idle := by
  by_cases acts : event = .act
  · subst acts
    cases began : session.vigil.round with
    | none => exact Or.inl (by rw [act_of_none began])
    | some round =>
      rw [executor_act began]
      refine (stage_perform session.executor session.vigil.cell round.choice).imp_right
        (Or.imp_right ?_)
      rintro ⟨idle, failed | ⟨dispatching, -⟩⟩
      · exact ⟨idle, by simp [failed]⟩
      · exact ⟨idle, by simp [dispatching]⟩
  · exact Or.inl (stage_apply session acts)

theorem stage_apply_ne_idle (begun : session.executor.stage ≠ .idle) (event : SessionEvent) :
    (session.apply event).executor.stage ≠ .idle := by
  rcases stage_apply_cases session event with same | left | ⟨idle, -⟩
  · rwa [same]
  · intro idle
    simp [hasLeft, idle] at left
  · exact absurd idle begun

/-- An executor that has left off or has failed does not dispatch again. -/
theorem gone_apply (gone : session.executor.hasLeft = true ∨ session.executor.stage = .failed)
    (event : SessionEvent) : (session.apply event).executor.hasLeft = true ∨
      (session.apply event).executor.stage = .failed := by
  rcases stage_apply_cases session event with same | left | ⟨idle, -⟩
  · unfold hasLeft at gone ⊢
    rwa [same]
  · exact Or.inl left
  · simp [hasLeft, idle] at gone

/-- A session in which no round is going on goes on so until a round begins. -/
theorem round_apply_of_none (resting : session.vigil.round = none) {event : SessionEvent}
    (other : ¬∃ grace, event = .choose grace) :
    (session.apply event).vigil.round = none ∧
      (session.apply event).executor.stage = session.executor.stage := by
  cases event with
  | choose grace => exact absurd ⟨grace, rfl⟩ other
  | act =>
    rw [act_of_none resting]
    exact ⟨resting, rfl⟩
  | pass time => exact ⟨resting, rfl⟩
  | change change => exact ⟨resting, rfl⟩
  | task worker stimulus => exact ⟨resting, stage_apply session nofun⟩

/-- No round is going on once its step is done. -/
theorem round_act (session : Session) : (session.apply .act).vigil.round = none := by
  cases began : session.vigil.round with
  | none => rwa [act_of_none began]
  | some round => rw [act_of_some began]

end Session

end Cadence
