import Cadence.Command.Perform
import Cadence.Course
import Cadence.Live.Gateway

/-!
# Live runs

The course of a run against a gateway, with time that really passes. What is done and in which
order is up to the course; here it is only told the time and the replies.
-/

namespace Cadence.Live

open Std Async

/-- A request that has been sent. -/
structure Sent where
  errand : Errand
  reply : AsyncTask Reply

/-- What goes on beside a course. -/
structure Surroundings where
  client : Client
  verbose : Bool
  /-- When the course started, by the monotonic clock. -/
  started : Nat
  /-- Is there when the operator interrupts the run. -/
  interrupt : Option (AsyncTask Int)

/-- Shows a line to the operator. -/
def log (line : String) : IO Unit := IO.eprintln line

/-- Shows the notices that have come up since there were so many. -/
def showNotices (course : Course) (shown : Nat) : IO Unit :=
  ((course.notices.take (course.notices.length - shown)).reverse).forM fun (_, notice) =>
    log notice.line

/-- Takes the replies that have arrived; the other requests are still waited for. -/
def collect (around : Surroundings) (course : Course) (sent : List Sent) :
    IO (Course × List Sent) :=
  sent.foldlM (fun (course, waiting) sent => do
    if ← IO.hasFinished sent.reply then
      let reply := match sent.reply.get with
        | .ok reply => reply
        | .error error => .lost (toString error) .zero
      if around.verbose then
        (reply.error.forM fun error => log (sent.errand.request.label ++ " failed: " ++ error))
      return (course.answer sent.errand course.now reply, waiting)
    else return (course, sent :: waiting)) (course, [])

/-- Asks for a stop if the operator has interrupted the run. -/
def heed (around : Surroundings) (course : Course) : IO (Course × Surroundings) := do
  match around.interrupt with
  | none => return (course, around)
  | some signal =>
    if ← IO.hasFinished signal then
      log "interrupt received; stopping run"
      return (course.happen (.stop (.ask "interrupted")), { around with interrupt := none })
    else return (course, around)

/-- Follows a course until it is over. -/
partial def follow (around : Surroundings) (course : Course) (sent : List Sent) : IO Course := do
  let course := course.advance ((← IO.monoMsNow) - around.started)
  let (course, sent) ← collect around course sent
  let (course, around) ← heed around course
  match course.takeErrand? with
  | some (errand, course) =>
    let reply ← (call around.client errand.request).toIO
    follow around course (⟨errand, reply⟩ :: sent)
  | none =>
    if course.nextDue?.any (· ≤ course.now) then
      match course.step? with
      | none => return course
      | some next =>
        showNotices next course.notices.length
        follow around next sent
    else if course.run.wait ≠ .goesOn then return course
    else do
      IO.sleep 1
      follow around course sent

/-- The bytes of a number in base 256, the greatest first. -/
def ofBytes (bytes : ByteArray) : Nat := bytes.toList.foldl (fun n byte => 256 * n + byte.toNat) 0

/-- Makes the run that a configuration asks for. -/
def run (options : Options) (client : Client) (config : RunConfig) : IO (Except Fault Ended) := do
  let nanos := (← Time.Timestamp.now).toNanosecondsSinceUnixEpoch.val
  let instant ← IO.monoNanosNow
  match Course.ofConfig config instant (Int.fdiv nanos 1000000) (.initial none) [] with
  | .error fault => return .error fault
  | .ok course =>
    let runId := RunId.ofRandom (ofBytes (← IO.getRandomBytes 16))
    let interrupt ← (← Signal.Waiter.mk .sigint false).wait
    let course ← follow ⟨client, options.verbose, ← IO.monoMsNow, some interrupt⟩ course []
    let startedAt : Moment := ⟨Int.fdiv nanos 1000000000, (Int.fmod nanos 1000000000).toNat⟩
    return .ok ⟨course, runId, startedAt⟩

end Cadence.Live
