import Cadence.Key
import Cadence.Request
import Cadence.Sample

/-!
# Iterations

The body of an iteration is a resumption: it ends with an outcome, or waits for the reply to a
request or for a time to pass and then goes on. It touches nothing but the gateway; what it
observed is handed on when it has ended.
-/

namespace Cadence

/-- Which iteration is running. -/
structure IterationContext where
  scenario : String
  worker : Nat
  /-- Iterations of this worker before. -/
  iteration : Nat
  /-- Iterations of this scenario started before, by any worker. -/
  serial : Nat
  deriving Repr, DecidableEq

namespace IterationContext

/-- A key that no other iteration of the run uses. -/
def key (context : IterationContext) (stem : String) (millis : Int) : String :=
  Key.text stem context.worker context.iteration millis

def check (context : IterationContext) (name : String) (passed : Bool) : Check :=
  ⟨context.scenario, name, passed⟩

/-- The sample of a request: it failed unless it got one of the expected statuses. -/
def sample (context : IterationContext) (label : String) (reply : Reply) (expected : List Nat) :
    Sample where
  scenario := context.scenario
  name := label
  duration := reply.elapsed
  failed := !reply.isOneOf expected
  status := reply.status

end IterationContext

/-- What is left of an iteration. -/
inductive Body where
  | done (outcome : Outcome)
  /-- The iteration breaks off without an outcome. -/
  | broken
  | pause (time : Duration) (next : Body)
  | ask (request : Request) (next : Reply → Body)

end Cadence
