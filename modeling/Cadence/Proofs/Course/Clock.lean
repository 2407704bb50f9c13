import Cadence.Proofs.Course.Move
import Cadence.Proofs.Executor.Heed
import Cadence.Proofs.Pace
import Cadence.Proofs.Run.Plan

/-!
# Clocks that can be set up

An executor sets up its clock when it begins: it needs the instant of its deadline and a distance
between its ticks. A configuration that is accepted has rates for which there is a distance, but it
may have a duration that ends after all instants; then every executor fails at once, and the run
has no report. With a deadline that is an instant no executor fails, whatever happens.
-/

namespace Cadence

namespace Executor

variable {cell : StopCell} {due : Due} {choice : Choice} {executor : Executor}

/-- An executor fails if its clock cannot be set up when it begins, and only then. -/
theorem stage_of_clock (chosen : executor.choose cell due = some choice) :
    (due.clock = true → executor.stage ≠ .failed →
      (executor.perform cell choice).1.stage ≠ .failed) ∧
    (due.clock = false → executor.stage = .idle →
      (executor.perform cell choice).1 = { executor with stage := .failed }) := by
  refine ⟨fun clock unfailed failed => ?_, fun clock idle => ?_⟩
  · rcases stage_perform executor cell choice with same | left | ⟨idle, -⟩
    · exact unfailed (same.symm.trans failed)
    · simp [hasLeft, failed] at left
    · obtain rfl : .enter = choice := by simpa [choose, idle, clock] using chosen
      simp only [perform, idle] at failed
      split at failed
      · simpa [hasLeft, failed] using hasLeft_leave executor
      · cases failed
  · obtain rfl : .fail = choice := by simpa [choose, idle, clock] using chosen
    simp [perform, idle]

end Executor

namespace Run

theorem length_apply (run : Run) (event : RunEvent) :
    (run.apply event).executors.length = run.executors.length := by
  cases event with
  | step lane choice =>
    cases found : run.executors[lane]? <;> simp [apply, found, setExecutor]
  | task lane worker stimulus =>
    cases found : run.executors[lane]? <;> simp [apply, found, setExecutor]
  | stop reason => rfl
  | progress => rfl
  | abortCheck => simp [apply]

/-- The wait for executors of which none has failed does not fail. -/
theorem waitFrom_ne_failed {executors : List Executor}
    (unfailed : ∀ executor ∈ executors, executor.stage ≠ .failed) (number lane : Nat) :
    waitFrom number executors ≠ .failed lane := by
  induction executors generalizing number with
  | nil => simp [waitFrom]
  | cons executor rest ih =>
    obtain ⟨first, others⟩ := List.forall_mem_cons.mp unfailed
    cases stage : executor.stage with
    | failed => exact absurd stage first
    | ended => simpa [waitFrom, stage] using ih others (number + 1)
    | idle => simp [waitFrom, stage]
    | dispatching => simp [waitFrom, stage]
    | draining => simp [waitFrom, stage]

/-- The wait for executors that can only fail is over when the first of them has failed. -/
theorem waitFrom_of_broken {executors : List Executor} (someOne : executors ≠ [])
    (broken : ∀ executor ∈ executors, executor.stage = .idle ∨ executor.stage = .failed)
    {number : Nat} (done : waitFrom number executors ≠ .goesOn) :
    waitFrom number executors = .failed number := by
  cases executors with
  | nil => exact absurd rfl someOne
  | cons executor rest =>
    rcases broken executor (List.mem_cons_self ..) with idle | failed
    · simp [waitFrom, idle] at done
    · simp [waitFrom, failed]

end Run

namespace Course

/-- How a course can go on, with stops asked for or put into the cell at any moment. -/
inductive Follows (first : Course) : Course → Prop where
  | begins : Follows first first
  | moves {course next : Course} (before : Follows first course) (moves : Moves course next) :
      Follows first next
  | stops {course : Course} (before : Follows first course) (change : StopChange) :
      Follows first (course.happen (.stop change))

/-- What becomes of an executor rests on its clock: it does not fail if that can be set up, and does
nothing else if it cannot. -/
structure Clocked (terms : Terms) (executor : Executor) : Prop where
  period : executor.plan.period.isZero = false
  sound : executor.plan.paceable terms.instant terms.duration = true → executor.stage ≠ .failed
  broken : executor.plan.paceable terms.instant terms.duration = false →
    (executor.stage = .idle ∨ executor.stage = .failed) ∧ executor.handled = 0

variable {course next : Course} {lane : Nat} {executor after : Executor} {terms : Terms}

theorem Clocked.keep (h : Clocked terms executor) (keeps : executor.Keeps after) :
    Clocked terms after := by
  obtain ⟨period, sound, broken⟩ := h
  refine ⟨?_, ?_, ?_⟩
  · rwa [keeps.plan]
  · rwa [keeps.plan, keeps.stage]
  · rwa [keeps.plan, keeps.stage, keeps.handled]

theorem LaneMove.clocked (move : LaneMove course lane executor next after)
    (h : Clocked course.terms executor) : Clocked course.terms after := by
  cases move with
  | stands keeps now => exact h.keep keeps
  | waits keeps idle timely => exact h.keep keeps
  | performs choice chosen now =>
    have plan := (Executor.perform_turn executor course.run.stop choice).plan
    obtain ⟨sound, broken⟩ := Executor.stage_of_clock chosen
    refine ⟨?_, ?_, ?_⟩
    · rw [plan]
      exact h.period
    · rw [plan]
      exact fun clock => sound clock (h.sound clock)
    · rw [plan]
      intro clock
      obtain ⟨idle | failed, handled⟩ := h.broken clock
      · rw [broken clock idle]
        exact ⟨Or.inr rfl, handled⟩
      · simp [Executor.choose, failed] at chosen

theorem happen_frame (course : Course) (happening : Happening) :
    (course.happen happening).terms = course.terms ∧
      (course.happen happening).run.executors.length = course.run.executors.length := by
  cases happening with
  | task number worker stimulus =>
    obtain ⟨run, -, terms⟩ := aside_stimulate course number worker stimulus
    refine ⟨terms, ?_⟩
    simp only [happen]
    rw [run]
    exact Run.length_apply course.run _
  | stop change => exact ⟨rfl, rfl⟩
  | progress round every => exact ⟨rfl, Run.length_apply course.run .progress⟩
  | abortCheck round every => exact ⟨rfl, Run.length_apply course.run .abortCheck⟩

theorem step_frame (h : course.step? = some next) :
    next.terms = course.terms ∧ next.run.executors.length = course.run.executors.length := by
  unfold step? at h
  split at h
  next => cases h
  next =>
    split at h
    next number choice _ =>
      cases h
      obtain ⟨run, -, terms⟩ := aside_perform course number choice
      refine ⟨terms, ?_⟩
      rw [run]
      exact Run.length_apply course.run _
    next =>
      split at h
      next => cases h
      next => cases h; exact ⟨rfl, rfl⟩
      next =>
        split at h
        next => cases h; exact ⟨rfl, rfl⟩
        next => cases h; exact happen_frame _ _

/-- The terms of a course stay, no executor comes to it, and none is taken away. -/
theorem Moves.frame (h : Moves course next) :
    next.terms = course.terms ∧ next.run.executors.length = course.run.executors.length := by
  cases h with
  | step h => exact step_frame h
  | elapse time resting timely => exact ⟨rfl, rfl⟩
  | take h =>
    unfold takeErrand? at h
    split at h
    next => cases h
    next => cases h; exact ⟨rfl, rfl⟩
  | schedule due number worker stimulus => exact ⟨rfl, rfl⟩

/-- What a move of its lane keeps of an executor a move of the course keeps of all of them. -/
theorem Moves.clocked (h : Moves course next)
    (all : ∀ executor ∈ course.run.executors, Clocked course.terms executor) :
    ∀ executor ∈ next.run.executors, Clocked course.terms executor := by
  intro executor member
  obtain ⟨lane, inside, found⟩ := List.getElem_of_mem member
  rw [h.frame.2] at inside
  have before := List.getElem?_eq_getElem inside
  obtain ⟨-, after, left, move⟩ := moves_lane h before
  have same : next.run.executors[lane]? = some executor :=
    List.getElem?_eq_some_iff.mpr ⟨_, found⟩
  obtain rfl : after = executor := Option.some.inj (left.symm.trans same)
  exact move.clocked (all _ (List.getElem_mem inside))

theorem Follows.frame {first : Course} (h : Follows first course) :
    course.terms = first.terms ∧ course.run.executors.length = first.run.executors.length := by
  induction h with
  | begins => exact ⟨rfl, rfl⟩
  | moves before moves ih => exact ⟨moves.frame.1.trans ih.1, moves.frame.2.trans ih.2⟩
  | stops before change ih => exact ih

theorem Follows.clocked {first : Course} (h : Follows first course)
    (all : ∀ executor ∈ first.run.executors, Clocked first.terms executor) :
    ∀ executor ∈ course.run.executors, Clocked first.terms executor := by
  induction h with
  | begins => exact all
  | moves before moves ih =>
    rw [← before.frame.1] at ih ⊢
    exact moves.clocked ih
  | stops before change ih => exact ih

/-- An executor that has subscribed is at the beginning, whatever its clock. -/
theorem clocked_subscribe {plan : Plan} (period : plan.period.isZero = false) (terms : Terms)
    (cell : StopCell) : Clocked terms (.subscribe plan cell) where
  period := period
  sound _ := nofun
  broken _ := ⟨Or.inl rfl, rfl⟩

theorem paceable_eq (h : Clocked terms executor) :
    executor.plan.paceable terms.instant terms.duration =
      representable terms.instant terms.duration := by
  simp [Plan.paceable, h.period]

section Start

variable {config : RunConfig}

/-- A configuration that is accepted and asks for built-in scenarios has a course, with an executor
for every plan. -/
theorem exists_course (accepted : config.Accepted)
    (known : ∀ entry ∈ config.scenarioRates, entry.1 = pingName ∨ entry.1 = putGetName)
    (instant : Nat) (epoch : Int) (cell : StopCell) (stops : List (Nat × String)) :
    ∃ plans first, Plan.ofConfig config = .ok plans ∧
      ofConfig config instant epoch cell stops = .ok first ∧ plans ≠ [] ∧
      first.terms = ⟨config.duration, config.gracePeriod, instant⟩ ∧
      first.run.executors = plans.map fun plan => .subscribe plan cell := by
  obtain ⟨plans, planned⟩ := Plan.ofConfig_of_accepted accepted known
  have validated := RunConfig.validate_eq_ok_iff.mpr accepted
  refine ⟨plans, _, planned, bind_eq_ok.mpr ⟨(), validated, bind_eq_ok.mpr ⟨plans, planned, rfl⟩⟩,
    ?_, rfl, rfl⟩
  rintro rfl
  have names := (Plan.ofConfig_eq_ok planned).1
  exact accepted.scenarios (List.map_eq_nil_iff.mp names.symm)

theorem clocked_start {plans : List Plan} (planned : Plan.ofConfig config = .ok plans)
    (terms : Terms) (cell : StopCell) :
    ∀ executor ∈ plans.map fun plan => Executor.subscribe plan cell,
      Clocked terms executor ∧ executor.stage = .idle := by
  intro executor member
  obtain ⟨plan, inside, rfl⟩ := List.mem_map.mp member
  have period := Pace.isZero_period (Plan.ofConfig_pace planned plan inside).2
  exact ⟨clocked_subscribe period terms cell, rfl⟩

end Start

/-- Without an instant for the deadline the first thing that happens is that the first executor
fails. -/
theorem step_of_broken {first : Course} (someOne : first.run.executors ≠ [])
    (all : ∀ executor ∈ first.run.executors,
      Clocked first.terms executor ∧ executor.stage = .idle)
    (broken : representable first.terms.instant first.terms.duration = false) :
    ∃ next, first.step? = some next ∧ next.run.wait = .failed 0 := by
  cases executors : first.run.executors with
  | nil => exact absurd executors someOne
  | cons executor rest =>
    obtain ⟨clocked, idle⟩ := all executor (by simp [executors])
    have clock : (first.due 0 executor).clock = false := by
      rw [due, paceable_eq clocked, broken]
    have ready : first.ready? = some (0, .fail) := by
      simp [ready?, executors, List.zipIdx_cons, Executor.choose, idle, clock]
    have goesOn : first.run.wait = .goesOn := by simp [Run.wait, executors, Run.waitFrom, idle]
    refine ⟨first.perform 0 .fail, by simp [step?, goesOn, ready], ?_⟩
    rw [(aside_perform first 0 .fail).run]
    simp [Run.apply, executors, Executor.perform, idle, Run.setExecutor, Run.wait, Run.waitFrom]

/-- A course of which no executor has failed has a report. -/
theorem exists_report (unfailed : ∀ executor ∈ course.run.executors, executor.stage ≠ .failed)
    (thresholds : List Threshold) (runId : RunId) (startedAt : Moment) :
    ∃ report, course.report thresholds runId startedAt = .ok report := by
  unfold report
  cases wait : course.run.wait with
  | failed lane => exact absurd wait (Run.waitFrom_ne_failed unfailed 0 lane)
  | _ => exact ⟨_, rfl⟩

theorem report_of_failed {lane : Nat} (failed : course.run.wait = .failed lane)
    (thresholds : List Threshold) (runId : RunId) (startedAt : Moment) :
    course.report thresholds runId startedAt =
      .error (.internal "scenario executor failed: task panicked") := by
  simp [report, failed]

/-- A run that is asked for by an accepted configuration of built-in scenarios can be honoured just
when the deadline is an instant. Then no executor fails at any moment of any course, and there is a
report. Otherwise the executors handle no arrival, the first of them fails at once, and when the
wait for them is over there is an internal error for a report. The ticks have a distance in either
case. -/
theorem honoured_by_deadline {config : RunConfig} (accepted : config.validate = .ok ())
    (known : ∀ entry ∈ config.scenarioRates, entry.1 = pingName ∨ entry.1 = putGetName)
    (instant : Nat) (epoch : Int) (cell : StopCell) (stops : List (Nat × String)) :
    ∃ first, ofConfig config instant epoch cell stops = .ok first ∧
      (∀ executor ∈ first.run.executors, executor.plan.period.isZero = false) ∧
      (representable instant config.duration = true → ∀ course, Follows first course →
        (∀ executor ∈ course.run.executors, executor.stage ≠ .failed) ∧
        ∀ thresholds runId startedAt, ∃ report,
          course.report thresholds runId startedAt = .ok report) ∧
      (representable instant config.duration = false →
        (∃ next, first.step? = some next ∧ next.run.wait = .failed 0) ∧
        ∀ course, Follows first course →
          (∀ executor ∈ course.run.executors, executor.handled = 0) ∧
          (course.run.wait ≠ .goesOn → ∀ thresholds runId startedAt,
            course.report thresholds runId startedAt =
              .error (.internal "scenario executor failed: task panicked"))) := by
  obtain ⟨plans, first, planned, begun, someOne, terms, executors⟩ :=
    exists_course (RunConfig.validate_eq_ok_iff.mp accepted) known instant epoch cell stops
  have idle : ∀ executor ∈ first.run.executors,
      Clocked first.terms executor ∧ executor.stage = .idle := by
    rw [executors]
    exact clocked_start planned _ cell
  have all := fun executor member => (idle executor member).1
  refine ⟨first, begun, fun executor member => (all executor member).period, ?_, ?_⟩
  · intro representable course follows
    have unfailed : ∀ executor ∈ course.run.executors, executor.stage ≠ .failed := by
      intro executor member
      have clocked := follows.clocked all executor member
      exact clocked.sound (by rw [paceable_eq clocked, terms, representable])
    exact ⟨unfailed, exists_report unfailed⟩
  · intro broken
    refine ⟨step_of_broken (by simp [executors, someOne]) idle (by rw [terms, broken]), ?_⟩
    intro course follows
    have stuck : ∀ executor ∈ course.run.executors,
        (executor.stage = .idle ∨ executor.stage = .failed) ∧ executor.handled = 0 := by
      intro executor member
      have clocked := follows.clocked all executor member
      exact clocked.broken (by rw [paceable_eq clocked, terms, broken])
    have kept : course.run.executors ≠ [] := by
      rw [← List.length_pos_iff, follows.frame.2, executors, List.length_map]
      exact List.length_pos_iff.mpr someOne
    exact ⟨fun executor member => (stuck executor member).2, fun done => report_of_failed
      (Run.waitFrom_of_broken kept (fun executor member => (stuck executor member).1) done)⟩

/-- A run of the default configuration can be honoured. -/
theorem honoured_default : ∃ first,
    ofConfig RunConfig.default 0 0 (.initial none) [] = .ok first ∧ ∀ course, Follows first course →
      (∀ executor ∈ course.run.executors, executor.stage ≠ .failed) ∧
      ∀ thresholds runId startedAt, ∃ report,
        course.report thresholds runId startedAt = .ok report := by
  obtain ⟨first, begun, -, honoured, -⟩ := honoured_by_deadline
    (show RunConfig.default.validate = .ok () from rfl) (by decide) 0 0 (.initial none) []
  exact ⟨first, begun, honoured (by decide +kernel)⟩

/-- One arrival a second for as long as can be asked for. -/
def endless : RunConfig :=
  { RunConfig.default with
    scenarioRates := [(pingName, 1)]
    duration := .ofSecs (2 ^ 64 - 1)
    settle := .zero
    minWorkers := 1
    thresholds := [] }

/-- The longest duration is accepted, and its deadline is no instant. -/
theorem accepted_though_endless : endless.validate = .ok () ∧
    (∀ entry ∈ endless.scenarioRates, entry.1 = pingName ∨ entry.1 = putGetName) ∧
    ∃ first next, ofConfig endless 0 0 (.initial none) [(500, "enough")] = .ok first ∧
      first.step? = some next ∧ ∀ thresholds runId startedAt,
        next.report thresholds runId startedAt =
          .error (.internal "scenario executor failed: task panicked") := by
  have accepted : endless.validate = .ok () := rfl
  have known : ∀ entry ∈ endless.scenarioRates, entry.1 = pingName ∨ entry.1 = putGetName := by
    decide
  obtain ⟨plans, first, planned, begun, someOne, terms, executors⟩ := exists_course
    (RunConfig.validate_eq_ok_iff.mp accepted) known 0 0 (.initial none) [(500, "enough")]
  have idle : ∀ executor ∈ first.run.executors,
      Clocked first.terms executor ∧ executor.stage = .idle := by
    rw [executors]
    exact clocked_start planned _ _
  have broken : representable first.terms.instant first.terms.duration = false := by
    rw [terms]
    decide +kernel
  obtain ⟨next, step, failed⟩ := step_of_broken (by simp [executors, someOne]) idle broken
  exact ⟨accepted, known, first, next, begun, step, report_of_failed failed⟩

end Course

end Cadence
