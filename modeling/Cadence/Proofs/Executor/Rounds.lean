import Cadence.Proofs.Executor.Session

/-!
# The rounds of the dispatching

How often an executor goes round before it leaves off, and that it does leave off. Every round takes
something off its backlog; only an arrival or a change of the stop cell adds to it. As no tick that
is due at the deadline or behind it is handled, there are only so many arrivals, and an executor
that gets its turns leaves off.
-/

namespace Cadence

open Executor

namespace Session

/-- How many of a sequence of events are of a kind, each in the session that it meets. -/
def tally (kind : Session → SessionEvent → Bool) (session : Session) : List SessionEvent → Nat
  | [] => 0
  | event :: events => (kind session event).toNat + (session.apply event).tally kind events

/-- A round of the dispatching is done. -/
def isRound (session : Session) : SessionEvent → Bool
  | .act => session.vigil.round.isSome && session.executor.stage == .dispatching
  | _ => false

/-- An iteration is joined after the executor has left off. -/
def joinsLate (session : Session) : SessionEvent → Bool
  | .act => session.vigil.round.any fun round =>
      session.executor.hasLeft && (session.executor.deed? round.choice).any Deed.isJoin
  | _ => false

/-- The stop cell is changed or closed. -/
def alters (session : Session) : SessionEvent → Bool
  | .change change => change.apply session.vigil.cell != session.vigil.cell
  | _ => false

variable {session : Session}

/-- If every event pays for what is charged out of what it takes off one amount, puts on another or
is granted, so does every sequence of events. -/
theorem Sound.tally_add_le (sound : Sound session)
    (charged granted : Session → SessionEvent → Bool) (before behind : Session → Nat)
    (pays : ∀ {session}, Sound session → ∀ event,
      (charged session event).toNat + before (session.apply event) + behind session ≤
        before session + behind (session.apply event) + (granted session event).toNat)
    (events : List SessionEvent) :
    session.tally charged events + before (session.applyAll events) + behind session ≤
      before session + behind (session.applyAll events) + session.tally granted events := by
  induction events generalizing session with
  | nil => simp [tally]
  | cons event events ih =>
    have first := pays sound event
    have rest := ih (sound.apply event)
    rw [applyAll_cons, tally, tally]
    omega

theorem tally_never (session : Session) (events : List SessionEvent) :
    session.tally (fun _ _ => false) events = 0 := by
  induction events generalizing session with
  | nil => rfl
  | cons event events ih => rw [tally, ih, Bool.toNat_false]

/-- A round takes one off the backlog; a change of the stop cell grants one, an arrival two. -/
theorem Sound.backlog_apply (sound : Sound session) (event : SessionEvent) :
    (session.isRound event).toNat +
        backlog (session.apply event).vigil.cell (session.apply event).executor +
        2 * session.executor.handled ≤
      backlog session.vigil.cell session.executor +
        2 * (session.apply event).executor.handled + (session.alters event).toNat := by
  cases event with
  | pass time => simp [isRound, alters]
  | change change =>
    have more := backlog_change_le change session.vigil.cell session.executor
    simp only [isRound, alters, executor_change, cell_change, Bool.toNat_false]
    omega
  | choose grace => simp [isRound, alters]
  | act =>
    cases began : session.vigil.round with
    | none =>
      rw [act_of_none began]
      simp [isRound, alters, began]
    | some round =>
      have paid := (sound.grounds round began).backlog_perform sound.seen
      rw [act_of_some began]
      simpa [isRound, alters, began] using! paid
  | task worker stimulus =>
    have nudge := nudge_stimulate session.executor worker stimulus
    have same : backlog session.vigil.cell (session.apply (.task worker stimulus)).executor =
        backlog session.vigil.cell session.executor := nudge.backlog
    have handled : (session.apply (.task worker stimulus)).executor.handled =
        session.executor.handled := nudge.keeps.handled
    simp [isRound, alters, same, handled]

/-- A join of the drain takes one off the reserve. -/
theorem Sound.reserve_apply (sound : Sound session) (event : SessionEvent) :
    (session.joinsLate event).toNat + (session.apply event).executor.reserve ≤
      session.executor.reserve := by
  cases event with
  | pass time => simp [joinsLate]
  | change change => simp [joinsLate]
  | choose grace => simp [joinsLate]
  | act =>
    cases began : session.vigil.round with
    | none =>
      rw [act_of_none began]
      simp [joinsLate, began]
    | some round =>
      have paid := sound.bounded.reserve_perform session.vigil.cell round.choice
      rw [act_of_some began]
      simpa [joinsLate, began] using! paid
  | task worker stimulus =>
    have nudge := nudge_stimulate session.executor worker stimulus
    have same : (session.apply (.task worker stimulus)).executor.reserve =
        session.executor.reserve := nudge.reserve
    simp [joinsLate, same]

theorem Sound.rounds_le (sound : Sound session) (events : List SessionEvent) :
    session.tally isRound events + 2 * session.executor.handled ≤
      backlog session.vigil.cell session.executor +
        2 * (session.applyAll events).executor.handled + session.tally alters events := by
  have paid := sound.tally_add_le isRound alters
    (fun session => backlog session.vigil.cell session.executor)
    (fun session => 2 * session.executor.handled) Sound.backlog_apply events
  omega

theorem Sound.joinsLate_le (sound : Sound session) (events : List SessionEvent) :
    session.tally joinsLate events ≤ session.executor.reserve := by
  have paid := sound.tally_add_le joinsLate (fun _ _ => false) (·.executor.reserve) (fun _ => 0)
    Sound.reserve_apply events
  rw [tally_never] at paid
  exact Nat.le_trans (Nat.le_add_right _ _) paid

/-- What an endless sequence of events gives an executor: turns, in which it begins rounds and does
their steps, and time. -/
structure Fair (duration : Duration) (schedule : Nat → SessionEvent) : Prop where
  chooses : ∀ moment, ∃ later ≥ moment, ∃ grace, schedule later = .choose grace
  acts : ∀ moment, ∃ later ≥ moment, schedule later = .act
  passes : ∃ moment time, Duration.timerTick duration.nanos ≤ time ∧ schedule moment = .pass time

/-- A schedule that lets time pass and gives the executor its turns. -/
def turns (moment : Nat) : SessionEvent :=
  match moment % 3 with
  | 0 => .pass moment
  | 1 => .choose false
  | _ => .act

theorem fair_turns (duration : Duration) : Fair duration turns where
  chooses moment := ⟨3 * moment + 1, by omega, false, by simp [turns]⟩
  acts moment := ⟨3 * moment + 2, by omega, by simp [turns]⟩
  passes := ⟨3 * Duration.timerTick duration.nanos, 3 * Duration.timerTick duration.nanos,
    by omega, by simp [turns]⟩

/-- The deadline is due. -/
def IsLate (session : Session) : Prop :=
  Duration.timerTick session.terms.duration.nanos ≤ session.now

/-- A round is going on that takes the executor out of its stage. -/
def IsMoving (session : Session) : Prop :=
  ∃ round, session.vigil.round = some round ∧
    (session.executor.stage = .idle ∧ (round.choice = .enter ∨ round.choice = .fail) ∨
      session.executor.stage = .dispatching ∧ round.choice = .deadline)

theorem IsLate.apply (late : IsLate session) (event : SessionEvent) :
    IsLate (session.apply event) := by
  rw [IsLate, (frame_apply session event).1]
  exact Nat.le_trans late (now_apply session event)

theorem IsMoving.act (moving : IsMoving session) :
    (session.apply .act).executor.stage ≠ session.executor.stage := by
  obtain ⟨round, began, reason⟩ := moving
  have left := hasLeft_leave session.executor
  rw [executor_act began]
  intro same
  rcases reason with ⟨idle, enter | fail⟩ | ⟨dispatching, deadline⟩
  · simp only [perform, idle, enter] at same
    split at same
    · simp [hasLeft, same] at left
    · cases same
  · simp [perform, idle, fail] at same
  · simp only [perform, dispatching, deadline] at same
    simp [hasLeft, same] at left

/-- Such a round stays as it is until its step is done. -/
theorem IsMoving.apply (moving : IsMoving session) {event : SessionEvent} (other : event ≠ .act) :
    IsMoving (session.apply event) := by
  obtain ⟨round, began, reason⟩ := moving
  refine ⟨round, ?_, by rwa [stage_apply session other]⟩
  cases event with
  | choose grace => rwa [choose_of_some began]
  | act => exact absurd rfl other
  | pass time => exact began
  | change change => exact began
  | task worker stimulus => exact began

/-- A round that begins when the deadline is due takes an executor that has not left off out of its
stage. -/
theorem IsLate.choose (late : IsLate session) (resting : session.vigil.round = none)
    (before : session.executor.stage = .idle ∨ session.executor.stage = .dispatching)
    (grace : Bool) : IsMoving (session.apply (.choose grace)) := by
  have overdue : (session.due grace).deadline = true := decide_eq_true late
  unfold IsMoving
  rw [executor_choose]
  rcases before with idle | dispatching
  · have chosen : session.executor.choose session.vigil.cell (session.due grace) =
        some (if (session.due grace).clock then .enter else .fail) := by
      simp [Executor.choose, idle]
    refine ⟨_, Vigil.round_choose resting chosen, Or.inl ⟨idle, ?_⟩⟩
    cases (session.due grace).clock with
    | true => exact Or.inl rfl
    | false => exact Or.inr rfl
  · have chosen : session.executor.choose session.vigil.cell (session.due grace) =
        some .deadline := by simp [Executor.choose, dispatching, overdue]
    exact ⟨_, Vigil.round_choose resting chosen, Or.inr ⟨dispatching, rfl⟩⟩

section Along

variable {duration : Duration} {schedule : Nat → SessionEvent} {first : Session} {stage : Stage}
  {before between after : Session → Prop}

theorem Sound.along (sound : Sound first) (schedule : Nat → SessionEvent) (moment : Nat) :
    Sound (first.along schedule moment) := by
  induction moment with
  | zero => exact sound
  | succ moment ih => exact ih.apply (schedule moment)

/-- What every event keeps stays for good. -/
theorem along_keeps {motive : Session → Prop}
    (keeps : ∀ {session}, motive session → ∀ event, motive (session.apply event)) {moment : Nat}
    (holds : motive (first.along schedule moment)) :
    ∀ later ≥ moment, motive (first.along schedule later) := by
  intro later since
  induction later, since using Nat.le_induction with
  | base => exact holds
  | succ later since ih => exact keeps ih (schedule later)

/-- Whenever one thing holds along an endless sequence of events, another holds then or later. -/
def Leads (first : Session) (schedule : Nat → SessionEvent) (before after : Session → Prop) :
    Prop :=
  ∀ moment, before (first.along schedule moment) →
    ∃ later ≥ moment, after (first.along schedule later)

theorem Leads.trans (one : Leads first schedule before between)
    (two : Leads first schedule between after) : Leads first schedule before after := by
  intro moment ready
  obtain ⟨later, since, comes⟩ := one moment ready
  obtain ⟨last, behind, ends⟩ := two later comes
  exact ⟨last, Nat.le_trans since behind, ends⟩

/-- One of two ends is reached in any case if it is reached from the other. -/
theorem Leads.resolve
    (either : Leads first schedule before fun session => after session ∨ between session)
    (other : Leads first schedule between after) : Leads first schedule before after := by
  refine either.trans fun moment ready => ?_
  rcases ready with ends | comes
  · exact ⟨moment, Nat.le_refl _, ends⟩
  · exact other moment comes

/-- What an event that comes again and again brings about comes about, if no other takes away what
it needs. -/
theorem leads_of_often (helpful : SessionEvent → Prop)
    (often : ∀ moment, ∃ later ≥ moment, helpful (schedule later))
    (keeps : ∀ session event, before session → ¬helpful event → before (session.apply event))
    (helps : ∀ session event, before session → helpful event → after (session.apply event)) :
    Leads first schedule before after := by
  intro moment ready
  by_contra never
  push Not at never
  -- Without the end no helpful event comes, so nothing takes away what it needs; but one comes.
  have stays : ∀ later ≥ moment, before (first.along schedule later) := by
    intro later since
    induction later, since using Nat.le_induction with
    | base => exact ready
    | succ later since ih =>
      refine keeps _ _ ih fun helpful => ?_
      exact never (later + 1) (Nat.le_succ_of_le since) (helps _ _ ih helpful)
  obtain ⟨later, since, helpful⟩ := often moment
  exact never (later + 1) (Nat.le_succ_of_le since) (helps _ _ (stays later since) helpful)

/-- A round that is going on comes to its end. -/
theorem Fair.rests (fair : Fair duration schedule) :
    Leads first schedule (fun session => IsLate session ∧ session.executor.stage = stage)
      fun session => session.executor.stage ≠ stage ∨
        IsLate session ∧ session.executor.stage = stage ∧ session.vigil.round = none := by
  refine leads_of_often (· = .act) fair.acts ?_ ?_
  · intro session event ⟨late, here⟩ other
    exact ⟨late.apply event, (stage_apply session other).trans here⟩
  · rintro session event ⟨late, -⟩ rfl
    by_cases here : (session.apply .act).executor.stage = stage
    · exact Or.inr ⟨late.apply .act, here, round_act session⟩
    · exact Or.inl here

/-- Then a round begins. -/
theorem Fair.begins (fair : Fair duration schedule)
    (before : stage = .idle ∨ stage = .dispatching) :
    Leads first schedule
      (fun session =>
        IsLate session ∧ session.executor.stage = stage ∧ session.vigil.round = none)
      fun session => session.executor.stage = stage ∧ IsMoving session := by
  refine leads_of_often (∃ grace, · = .choose grace) fair.chooses ?_ ?_
  · intro session event ⟨late, here, resting⟩ other
    obtain ⟨resting, same⟩ := round_apply_of_none resting other
    exact ⟨late.apply event, same.trans here, resting⟩
  · rintro session event ⟨late, rfl, resting⟩ ⟨grace, rfl⟩
    rw [executor_choose]
    exact ⟨rfl, late.choose resting before grace⟩

/-- Its step is done, and takes the executor out of its stage. -/
theorem Fair.moves (fair : Fair duration schedule) :
    Leads first schedule (fun session => session.executor.stage = stage ∧ IsMoving session)
      fun session => session.executor.stage ≠ stage := by
  refine leads_of_often (· = .act) fair.acts ?_ ?_
  · intro session event ⟨here, moving⟩ other
    exact ⟨(stage_apply session other).trans here, moving.apply other⟩
  · rintro session event ⟨rfl, moving⟩ rfl
    exact moving.act

/-- An executor that has not left off gets out of its stage when the deadline is due. -/
theorem Fair.stage_ne (fair : Fair duration schedule)
    (before : stage = .idle ∨ stage = .dispatching) :
    Leads first schedule IsLate fun session => session.executor.stage ≠ stage := by
  intro moment late
  by_cases here : (first.along schedule moment).executor.stage = stage
  · exact fair.rests.resolve ((fair.begins before).trans fair.moves) moment ⟨late, here⟩
  · exact ⟨moment, Nat.le_refl _, here⟩

/-- Sooner or later the deadline is due. -/
theorem Fair.late (fair : Fair first.terms.duration schedule) :
    ∃ moment, IsLate (first.along schedule moment) := by
  obtain ⟨moment, time, due, passes⟩ := fair.passes
  refine ⟨moment + 1, ?_⟩
  rw [IsLate, (frame_along first schedule _).1, Session.along, passes]
  exact Nat.le_trans due (Nat.le_max_right _ _)

/-- An executor that gets its turns has begun and dispatches no more from some moment on. -/
theorem Fair.ends (first : Session) (fair : Fair first.terms.duration schedule) :
    ∃ moment, ∀ later ≥ moment,
      (first.along schedule later).executor.hasLeft = true ∨
        (first.along schedule later).executor.stage = .failed := by
  obtain ⟨second, late⟩ := fair.late
  -- Out of its first stage, and then out of the next: it comes back to neither.
  obtain ⟨third, since, begun⟩ := fair.stage_ne (Or.inl rfl) second late
  have late := along_keeps IsLate.apply late third since
  have begun := along_keeps (motive := (·.executor.stage ≠ .idle)) stage_apply_ne_idle begun
  obtain ⟨fourth, since, away⟩ := fair.stage_ne (Or.inr rfl) third late
  refine ⟨fourth, along_keeps (motive := fun session =>
    session.executor.hasLeft = true ∨ session.executor.stage = .failed) gone_apply ?_⟩
  have begun := begun fourth since
  unfold hasLeft
  cases stage : (first.along schedule fourth).executor.stage with
  | idle => exact absurd stage begun
  | dispatching => exact absurd stage away
  | draining => exact Or.inl rfl
  | ended => exact Or.inl rfl
  | failed => exact Or.inr rfl

end Along

/-- What dispatches no more has left off, or has failed because its deadline is no instant. -/
theorem Sound.stage_of_gone (sound : Sound session)
    (gone : session.executor.hasLeft = true ∨ session.executor.stage = .failed) :
    if representable session.terms.instant session.terms.duration then session.executor.hasLeft = true
    else session.executor.stage = .failed := by
  have paceable : session.executor.plan.paceable session.terms.instant session.terms.duration =
      representable session.terms.instant session.terms.duration := by
    rw [Plan.paceable, sound.clocked.period]
    exact Bool.and_true _
  split
  next clock => exact gone.resolve_right (sound.clocked.sound (paceable.trans clock))
  next broken =>
    have unpaced := paceable.trans (Bool.eq_false_iff.mpr broken)
    rcases (sound.clocked.broken unpaced).1 with idle | failed
    · simp [hasLeft, idle] at gone
    · exact failed

/-- An executor goes round a bounded number of times while it dispatches, whatever its iterations
do: twice for every arrival, once for every change of the stop cell, the end of whoever could change
it being one, and once to leave off. The arrivals are no more than the periods that begin before the
duration is over, and after them the drain joins at most as many iterations as there are workers.
With its turns and with time the executor leaves off, unless its deadline is no instant, in which
case it fails. -/
theorem dispatching_ends (plan : Plan) (terms : Terms) (cell : StopCell)
    (spaced : 0 < plan.period.nanos) :
    let first := start terms plan cell
    (∀ events,
      let executor := (first.applyAll events).executor
      let arrivals := executor.counters.dispatched + executor.counters.dropped
      let changes := first.tally alters events + cell.closed.toNat
      first.tally isRound events ≤ 2 * arrivals + changes + 1 ∧
        arrivals ≤ terms.duration.nanos ⌈/⌉ plan.period.nanos ∧
        first.tally joinsLate events ≤ plan.workers) ∧
    ∀ schedule, Fair terms.duration schedule → ∃ moment, ∀ later ≥ moment,
      let executor := (first.along schedule later).executor
      if representable terms.instant terms.duration then executor.hasLeft = true
      else executor.stage = .failed := by
  intro first
  have sound : Sound first := sound_start terms spaced cell
  refine ⟨fun events => ⟨?_, ?_, sound.joinsLate_le events⟩, fun schedule fair => ?_⟩
  · have rounds := sound.rounds_le events
    have backlog_eq : backlog first.vigil.cell first.executor = cell.closed.toNat + 1 :=
      backlog_subscribe plan cell
    have handled : first.executor.handled = 0 := rfl
    simp only [Executor.handled] at rounds handled
    omega
  · obtain ⟨same, plan_eq⟩ := frame_applyAll first events
    have bounded := (sound.applyAll events).bounded.handled_le
    rw [plan_eq, same] at bounded
    exact bounded spaced
  · obtain ⟨moment, gone⟩ := Fair.ends first fair
    refine ⟨moment, fun later since => ?_⟩
    have outcome := (sound.along schedule later).stage_of_gone (gone later since)
    rwa [(frame_along first schedule later).1] at outcome

/-- An iteration that begins, gets its answer and ends. -/
def flown : List SessionEvent :=
  [.task 0 (.begin 0), .task 0 (.answer (.ofStatus 200 .zero))]

/-- A round. -/
def turn : List SessionEvent := [.choose false, .act]

/-- Two arrivals and the joins of their iterations, a look at the cell that has been closed, and the
deadline: there are no more rounds than that. -/
theorem dispatching_ends_six :
    let plan : Plan := ⟨.ping .zero, 100, .ofMillis 10, 1, 0⟩
    let first := start ⟨.ofMillis 15, .zero, 10 ^ 9⟩ plan (.initial none)
    let events := turn ++ turn ++ flown ++ turn ++ [.pass 10] ++ turn ++ flown ++ turn ++
      [.change .close] ++ turn ++ [.pass 15] ++ turn
    let executor := (first.applyAll events).executor
    let arrivals := executor.counters.dispatched + executor.counters.dropped
    let changes := first.tally alters events + (StopCell.initial none).closed.toNat
    (first.tally isRound events ≤ 2 * arrivals + changes + 1 ∧
        arrivals ≤ (Duration.ofMillis 15).nanos ⌈/⌉ plan.period.nanos ∧
        first.tally joinsLate events ≤ plan.workers) ∧
      first.tally isRound events = 6 ∧ arrivals = 2 ∧ changes = 1 ∧
      ∃ moment, ∀ later ≥ moment, (first.along turns later).executor.hasLeft = true := by
  intro plan first events executor arrivals changes
  obtain ⟨bound, ends⟩ := dispatching_ends plan ⟨.ofMillis 15, .zero, 10 ^ 9⟩ (.initial none) (by decide)
  obtain ⟨moment, gone⟩ := ends turns (fair_turns _)
  have clock : representable (10 ^ 9) (.ofMillis 15) = true := by decide +kernel
  refine ⟨?_, by decide +kernel, by decide +kernel, by decide +kernel, moment, ?_⟩
  · dsimp only [changes, arrivals, executor, first]
    exact bound events
  · intro later since
    have left := gone later since
    rwa [if_pos clock] at left

end Session

end Cadence
