import Cadence.Scenario

/-!
# Scripts

A scenario whose iterations only take time and then end as written down.
-/

namespace Cadence

/-- One iteration of a script: how long it takes, in milliseconds, and what it comes to. Without an
outcome it breaks off. -/
structure Act where
  latency : Nat
  outcome : Option Outcome
  deriving Repr

namespace Act

/-- The iteration an act describes. -/
def body (act : Act) : Body :=
  .pause (.ofMillis act.latency) <|
    match act.outcome with
    | some outcome => .done outcome
    | none => .broken

end Act

/-- A scenario that plays a script: its iterations take the acts in turn, over and over again, in
the order in which they start. Without acts an iteration ends at once and reports nothing. -/
def Scenario.ofScript (name : String) (settle : Duration) (script : List Act) : Scenario where
  name := name
  settle := settle
  body context _ :=
    match script[context.serial % script.length]? with
    | some act => act.body
    | none => .done default

end Cadence
