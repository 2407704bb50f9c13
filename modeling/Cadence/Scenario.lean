import Cadence.Config
import Cadence.Iteration

/-!
# Scenarios

A scenario names a workload and says what one iteration of it does. Two are built in: `ping` probes
the gateway, `putGet` writes a fresh key and reads it back.

Sections 4.2 and 4.3 of the specification.
-/

namespace Cadence

structure Scenario where
  name : String
  /-- How long a worker stays occupied after an iteration. -/
  settle : Duration
  /-- The body of an iteration that begins at a moment of the wall clock, in milliseconds. -/
  body : IterationContext → Int → Body

namespace Scenario

/-- One request, expecting 200. -/
def pingBody (context : IterationContext) : Body :=
  .ask .ping fun reply =>
    .done
      { samples := [context.sample Request.ping.label reply [200]]
        checks := [context.check "ping 200" (reply.isOneOf [200])] }

/-- A write under a key, then a read of it (4.3). The read is made whatever the write came to, so
that both are seen. -/
def putGetBody (context : IterationContext) (key value : String) (ttl : Duration) : Body :=
  let put := Request.put key value ttl
  let get := Request.get key
  .ask put fun written =>
    .ask get fun answered =>
      .done
        { samples := [context.sample put.label written [200, 201],
            context.sample get.label answered [200]]
          checks := [context.check "put 200/201" (written.isOneOf [200, 201]),
            context.check "get 200" (answered.isOneOf [200])] }

/-- The health probe (4.2). -/
def ping (settle : Duration) : Scenario where
  name := pingName
  settle := settle
  body context _ := pingBody context

/-- Writes and reads back. -/
def putGet (stem value : String) (ttl settle : Duration) : Scenario where
  name := putGetName
  settle := settle
  body context millis := putGetBody context (context.key stem millis) value ttl

/-- The scenario of that name. -/
def named (config : RunConfig) (name : String) : Except Fault Scenario :=
  if name = pingName then .ok (ping config.settle)
  else if name = putGetName then
    .ok (putGet config.keyPrefix config.value config.ttl config.settle)
  else .error (.invalid (.unknownScenario name))

/-- Every scenario for which a rate is configured. -/
def all (config : RunConfig) : Except Fault (List Scenario) :=
  config.scenarioRates.mapM fun (name, _) => named config name

end Scenario

end Cadence
