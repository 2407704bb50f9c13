import Cadence.Course
import Cadence.Rehearsal.Script
import Cadence.Rehearsal.Stub

/-!
# Rehearsals

A rehearsal is the course of a run on a virtual clock against a stub gateway. Time stands still as
long as anything can be done and then jumps to the next thing that is due, so that a rehearsal takes
no time and always goes the same way.
-/

namespace Cadence

structure Rehearsal where
  course : Course
  stub : Stub

namespace Rehearsal

/-- Lets the gateway take a request, or else does the next thing. -/
def step? (rehearsal : Rehearsal) : Option Rehearsal :=
  match rehearsal.course.takeErrand? with
  | some (errand, course) =>
    let (answer, stub) := rehearsal.stub.ask errand.request
    some ⟨course.answer errand (course.now + answer.latency) answer.reply, stub⟩
  | none => rehearsal.course.step?.map fun course => { rehearsal with course }

/-- Goes on until nothing is left to do, for at most so many steps. -/
def playOut : Nat → Rehearsal → Rehearsal
  | 0, rehearsal => rehearsal
  | steps + 1, rehearsal =>
    match rehearsal.step? with
    | none => rehearsal
    | some rehearsal => playOut steps rehearsal

/-- The number of times that something happens at regular intervals within a time, and one more. -/
def rounds (nanos : Nat) (every : Duration) : Nat := (nanos + 3000000) / every.nanos + 2

/-- The number of steps a rehearsal takes at most: every arrival takes at most sixteen, everything
else that happens at most two for each executor and two more. -/
def stepBound (course : Course) : Nat :=
  let lanes := course.run.executors.length
  let duration := course.terms.duration.nanos
  let horizon := duration + course.terms.gracePeriod.nanos
  let arrivals :=
    (course.run.executors.map fun executor => rounds duration executor.plan.period).foldr (· + ·) 0
  let others := (course.agenda.map fun entry =>
    match entry.item with
    | .progress _ every | .abortCheck _ every => rounds horizon every
    | .task .. | .stop _ => 1).foldr (· + ·) 0
  16 * arrivals + (2 * lanes + 2) * (others + 4)

end Rehearsal

/-- The course when it is over, played against a stub gateway. -/
def Course.rehearse (course : Course) (stub : Stub) : Course :=
  (Rehearsal.playOut (Rehearsal.stepBound course) ⟨course, stub⟩).course

end Cadence
