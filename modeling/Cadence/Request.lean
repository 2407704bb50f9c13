import Cadence.Duration

/-!
# Requests and replies

What scenarios ask of the gateway, and what comes back. A request that gets no answer is no error:
its reply has no status and says why.

Section 10.9 of the specification.
-/

namespace Cadence

inductive Request where
  | ping
  | put (key value : String) (ttl : Duration)
  | get (key : String)
  deriving Repr, DecidableEq

/-- The label under which samples of a request are recorded. -/
def Request.label : Request → String
  | .ping => "GET /ping"
  | .put .. => "PUT /kv/\x7bkey\x7d"
  | .get _ => "GET /kv/\x7bkey\x7d"

/-- A request that was made at a time, in milliseconds since the start. -/
structure Call where
  millis : Nat
  request : Request
  deriving Repr

structure Reply where
  status : Option Nat
  elapsed : Duration
  error : Option String
  deriving Repr, DecidableEq

namespace Reply

def ofStatus (status : Nat) (elapsed : Duration) : Reply := ⟨some status, elapsed, none⟩

/-- The reply to a request that got no answer. -/
def lost (error : String) (elapsed : Duration) : Reply := ⟨none, elapsed, some error⟩

/-- Whether one of the expected statuses came back. -/
def isOneOf (reply : Reply) (expected : List Nat) : Bool :=
  reply.status.any fun status => expected.contains status

end Reply

end Cadence
