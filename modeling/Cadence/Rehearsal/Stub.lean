import Cadence.Iteration

/-!
# Stub gateways

A gateway that answers from lists: the calls of a kind get the replies of its list in turn, over and
over again. A list without replies stands for a gateway that cannot be reached.
-/

namespace Cadence

/-- A reply and the time it takes, in milliseconds of the rehearsal. The reported duration is chosen
freely. -/
structure StubReply where
  status : Option Nat
  latency : Nat
  elapsed : Duration
  deriving Repr

/-- The replies to one kind of request. -/
structure StubLine where
  replies : List StubReply
  /-- Requests of this kind so far. -/
  asked : Nat := 0
  deriving Repr

structure Stub where
  pings : StubLine
  puts : StubLine
  gets : StubLine
  deriving Repr

namespace StubReply

/-- Nothing is there. -/
def unreachable : StubReply := ⟨none, 0, .zero⟩

/-- The reply as a client reports it. -/
def reply (stub : StubReply) : Reply :=
  match stub.status with
  | some status => .ofStatus status stub.elapsed
  | none => .lost "connection refused" stub.elapsed

end StubReply

/-- The reply to the next request of a kind. -/
def StubLine.next (line : StubLine) : StubReply × StubLine :=
  (line.replies[line.asked % line.replies.length]?.getD .unreachable,
    { line with asked := line.asked + 1 })

namespace Stub

/-- A gateway that cannot be reached. -/
def unreachable : Stub := ⟨⟨[], 0⟩, ⟨[], 0⟩, ⟨[], 0⟩⟩

/-- Takes a request. -/
def ask (stub : Stub) : Request → StubReply × Stub
  | .ping =>
    let (reply, line) := stub.pings.next
    (reply, { stub with pings := line })
  | .put .. =>
    let (reply, line) := stub.puts.next
    (reply, { stub with puts := line })
  | .get _ =>
    let (reply, line) := stub.gets.next
    (reply, { stub with gets := line })

/-- What became of an iteration that was played on its own. -/
structure Played where
  outcome : Option Outcome
  stub : Stub
  now : Nat
  calls : List Call

/-- Plays an iteration that begins at a time, with nothing else going on. -/
def play (stub : Stub) (now : Nat) : Body → Played
  | .done outcome => ⟨some outcome, stub, now, []⟩
  | .broken => ⟨none, stub, now, []⟩
  | .pause time next => stub.play (now + Duration.timerTick time.nanos) next
  | .ask request next =>
    let (answer, stub) := stub.ask request
    let played := stub.play (now + answer.latency) (next answer.reply)
    { played with calls := ⟨now, request⟩ :: played.calls }

end Stub

end Cadence
