import Cadence.Proofs.Executor.Pacing
import Cadence.Proofs.Run.Lanes

/-!
# The moves of a course

A course moves when it does its next thing, and when its surroundings take a request on or let an
iteration go on at some time. `moves_lane` says what a move is for one executor: a step of its own,
the one that comes first; something that does not concern it; or a wait, which no timer of it
outlasts.
-/

namespace Cadence

namespace Course

/-- What can happen to a course. The replies of the gateway, their latencies and the iterations that
break off are up to the surroundings: they let any iteration go on at any time in any way. Time
passes when nothing can be done, and no timer is passed over. -/
inductive Moves (course : Course) : Course → Prop where
  | step {next : Course} (h : course.step? = some next) : Moves course next
  | elapse (time : Nat) (resting : course.ready? = none)
      (timely : ∀ timer, course.nextTimers? = some timer → time ≤ timer) :
      Moves course (course.advance time)
  | take {next : Course} {errand : Errand} (h : course.takeErrand? = some (errand, next)) :
      Moves course next
  | schedule (due lane worker : Nat) (stimulus : Stimulus) :
      Moves course (course.schedule due (.task lane worker stimulus))

/-- What a move is for the executor of a lane, which the move leaves as `after`. -/
inductive LaneMove (course : Course) (lane : Nat) (executor : Executor) (next : Course) :
    Executor → Prop where
  | performs (choice : Choice)
      (chosen : executor.choose course.run.stop (course.due lane executor) = some choice)
      (now : next.now = course.now) :
      LaneMove course lane executor next (executor.perform course.run.stop choice).1
  | stands {after : Executor} (keeps : executor.Keeps after) (now : next.now = course.now) :
      LaneMove course lane executor next after
  | waits {after : Executor} (keeps : executor.Keeps after)
      (idle : executor.choose course.run.stop (course.due lane executor) = none)
      (timely : ∀ timer, course.nextTimer? lane executor = some timer → next.now ≤ timer) :
      LaneMove course lane executor next after

/-- The run and the clock of a course stay as they are, and so do its terms. -/
structure Aside (course next : Course) : Prop where
  run : next.run = course.run
  now : next.now = course.now
  terms : next.terms = course.terms

theorem aside_launch (course : Course) (lane : Nat) (before after : Executor) :
    Aside course (course.launch lane before after) := by
  unfold launch
  split
  · exact ⟨rfl, rfl, rfl⟩
  · split <;> exact ⟨rfl, rfl, rfl⟩

theorem aside_await (course : Course) (lane : Nat) (executor : Executor) (flight : Flight) :
    Aside course (course.await lane executor flight) := by
  unfold await
  split <;> exact ⟨rfl, rfl, rfl⟩

/-- A step of an executor is a step of the run, and takes no time. -/
theorem aside_perform (course : Course) (lane : Nat) (choice : Choice) :
    Aside { course with run := course.run.apply (.step lane choice) }
      (course.perform lane choice) := by
  unfold perform
  dsimp only
  have after := Run.executors_apply course.run (.step lane choice) lane
  cases found : course.run.executors[lane]? with
  | none =>
    have same : course.run.apply (.step lane choice) = course.run := by simp [Run.apply, found]
    simp only [same]
    exact ⟨rfl, rfl, rfl⟩
  | some executor =>
    rw [found, Option.map_some] at after
    simp only [after]
    exact ⟨(aside_launch _ lane _ _).run, (aside_launch _ lane _ _).now,
      (aside_launch _ lane _ _).terms⟩

/-- An iteration that goes on is one of the run, and takes no time. -/
theorem aside_stimulate (course : Course) (lane worker : Nat) (stimulus : Stimulus) :
    Aside { course with run := course.run.apply (.task lane worker stimulus) }
      (course.stimulate lane worker stimulus) := by
  unfold stimulate
  dsimp only
  split
  · exact ⟨rfl, rfl, rfl⟩
  · split
    · exact ⟨rfl, rfl, rfl⟩
    · exact aside_await _ lane _ _

variable {course next : Course} {lane : Nat} {executor : Executor}

/-- What the agenda says takes no time, and is no step of an executor. -/
theorem happen_lane (found : course.run.executors[lane]? = some executor) (happening : Happening) :
    (course.happen happening).now = course.now ∧ (course.happen happening).terms = course.terms ∧
      ∃ after, (course.happen happening).run.executors[lane]? = some after ∧
        executor.Keeps after := by
  cases happening with
  | task number worker stimulus =>
    obtain ⟨run, now, terms⟩ := aside_stimulate course number worker stimulus
    refine ⟨now, terms, ?_⟩
    simp only [happen]
    rw [run, Run.executors_apply, found]
    refine ⟨_, rfl, ?_⟩
    by_cases same : number = lane
    · simp only [Run.laneEvent?, same, if_true]
      exact (Executor.nudge_stimulate executor worker stimulus).keeps
    · simp only [Run.laneEvent?, same, if_false]
      exact .refl executor
  | stop change => exact ⟨rfl, rfl, executor, found, .refl executor⟩
  | progress round every => exact ⟨rfl, rfl, executor, found, .refl executor⟩
  | abortCheck round every =>
    refine ⟨rfl, rfl, executor, ?_, .refl executor⟩
    simpa [happen, schedule, Run.apply, announce] using found

/-- As long as an executor has nothing to do, its next timer has not fired. -/
theorem now_lt_timer (idle : executor.choose course.run.stop (course.due lane executor) = none)
    {timer : Nat} (next : course.nextTimer? lane executor = some timer) : course.now < timer := by
  obtain ⟨-, dispatching, draining⟩ := Executor.timers_of_idle idle
  unfold nextTimer? at next
  cases stage : executor.stage with
  | dispatching =>
    simp only [stage, Option.some.injEq] at next
    subst next
    obtain ⟨early, waiting⟩ := dispatching stage
    have early : course.now < course.deadline := by simpa [due] using early
    have waiting : course.now < tickDue executor := by simpa [due] using waiting
    exact Nat.lt_min.mpr ⟨early, waiting⟩
  | draining =>
    simp only [stage, Option.some.injEq] at next
    subst next
    simpa [due] using draining stage
  | idle => simp [stage] at next
  | ended => simp [stage] at next
  | failed => simp [stage] at next

/-- When none of the executors can do a step, each of them waits. -/
theorem idle_of_ready? (resting : course.ready? = none)
    (found : course.run.executors[lane]? = some executor) :
    executor.choose course.run.stop (course.due lane executor) = none := by
  have all := List.findSome?_eq_none_iff.mp resting
  have inside : (executor, lane) ∈ course.run.executors.zipIdx :=
    List.mem_zipIdx_iff_getElem?.mpr found
  simpa using all (executor, lane) inside

/-- The step that comes first belongs to an executor. -/
theorem choose_of_ready? {number : Nat} {choice : Choice}
    (ready : course.ready? = some (number, choice)) :
    ∃ executor, course.run.executors[number]? = some executor ∧
      executor.choose course.run.stop (course.due number executor) = some choice := by
  obtain ⟨⟨executor, lane⟩, inside, chosen⟩ := List.exists_of_findSome?_eq_some ready
  obtain ⟨choice, chosen, same⟩ := Option.map_eq_some_iff.mp chosen
  cases same
  exact ⟨executor, List.mem_zipIdx_iff_getElem?.mp inside, chosen⟩

/-- No timer of an executor fires before the next of all. -/
theorem nextTimers?_le (found : course.run.executors[lane]? = some executor) {timer : Nat}
    (next : course.nextTimer? lane executor = some timer) :
    ∃ first, course.nextTimers? = some first ∧ first ≤ timer := by
  have inside : timer ∈ course.run.executors.zipIdx.filterMap
      fun entry => course.nextTimer? entry.2 entry.1 :=
    List.mem_filterMap.mpr ⟨(executor, lane), List.mem_zipIdx_iff_getElem?.mpr found, next⟩
  cases least : course.nextTimers? with
  | none =>
    rw [nextTimers?, List.min?_eq_none_iff] at least
    rw [least] at inside
    cases inside
  | some first =>
    exact ⟨first, rfl, (List.min?_eq_some_iff.mp least).2 timer inside⟩

/-- A wait that outlasts no timer at all outlasts none of an executor. -/
theorem waits_of_resting (resting : course.ready? = none) {time : Nat}
    (timely : ∀ timer, course.nextTimers? = some timer → time ≤ timer)
    (found : course.run.executors[lane]? = some executor) {after : Executor}
    (keeps : executor.Keeps after) (now : next.now = max course.now time) :
    LaneMove course lane executor next after := by
  have idle := idle_of_ready? resting found
  refine .waits keeps idle fun timer coming => ?_
  obtain ⟨first, least, before⟩ := nextTimers?_le found coming
  rw [now]
  exact Nat.max_le.mpr ⟨Nat.le_of_lt (now_lt_timer idle coming),
    Nat.le_trans (timely first least) before⟩

/-- A step of one executor does not concern the others. -/
theorem perform_lane {number : Nat} {choice : Choice}
    (ready : course.ready? = some (number, choice))
    (found : course.run.executors[lane]? = some executor) :
    ∃ after, (course.perform number choice).run.executors[lane]? = some after ∧
      LaneMove course lane executor (course.perform number choice) after := by
  obtain ⟨run, now, -⟩ := aside_perform course number choice
  rw [run, Run.executors_apply, found]
  by_cases same : number = lane
  · subst same
    obtain ⟨first, found', chosen⟩ := choose_of_ready? ready
    obtain rfl : first = executor := Option.some.inj (found'.symm.trans found)
    refine ⟨_, rfl, ?_⟩
    simp only [Run.laneEvent?, if_true]
    exact .performs choice chosen now
  · refine ⟨_, rfl, ?_⟩
    simp only [Run.laneEvent?, same, if_false]
    exact .stands (.refl executor) now

theorem step_lane (h : course.step? = some next)
    (found : course.run.executors[lane]? = some executor) :
    next.terms = course.terms ∧
      ∃ after, next.run.executors[lane]? = some after ∧
        LaneMove course lane executor next after := by
  unfold step? at h
  split at h
  next => cases h
  next =>
    split at h
    next number choice ready =>
      cases h
      exact ⟨(aside_perform course number choice).terms, perform_lane ready found⟩
    next resting =>
      split at h
      next => cases h
      next time _ least =>
        cases h
        refine ⟨rfl, executor, found, waits_of_resting resting ?_ found (.refl executor) rfl⟩
        intro timer same
        rw [least] at same
        cases same
        exact Nat.le_refl _
      next first rest _ =>
        split at h
        next time early =>
          cases h
          refine ⟨rfl, executor, found, waits_of_resting resting ?_ found (.refl executor) rfl⟩
          intro timer same
          rw [same, Option.filter_eq_some_iff] at early
          cases early.1
          exact Nat.le_refl _
        next early =>
          cases h
          have same : (({ course with agenda := rest } : Course).advance
              first.due).run.executors[lane]? = some executor := found
          obtain ⟨now, terms, after, left, keeps⟩ := happen_lane same first.item
          refine ⟨terms, after, left, waits_of_resting resting ?_ found keeps now⟩
          intro timer same
          rw [same, Option.filter_eq_none_iff] at early
          simpa using early timer rfl

/-- What a move is for the executor of a lane. -/
theorem moves_lane (h : Moves course next)
    (found : course.run.executors[lane]? = some executor) :
    next.terms = course.terms ∧
      ∃ after, next.run.executors[lane]? = some after ∧
        LaneMove course lane executor next after := by
  cases h with
  | step h => exact step_lane h found
  | elapse time resting timely =>
    exact ⟨rfl, executor, found, waits_of_resting resting timely found (.refl executor) rfl⟩
  | @take _ errand h =>
    unfold takeErrand? at h
    split at h
    next => cases h
    next =>
      cases h
      exact ⟨rfl, executor, found, .stands (.refl executor) rfl⟩
  | schedule due number worker stimulus =>
    exact ⟨rfl, executor, found, .stands (.refl executor) rfl⟩

end Course

end Cadence
