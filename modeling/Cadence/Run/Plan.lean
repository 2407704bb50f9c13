import Cadence.Run

/-!
# Plans

Plans every scenario of a configuration. Each pool has a range of worker numbers of its own; the
ranges follow one another.

Sections 3 and 10.7 of the specification.
-/

namespace Cadence

/-- The instants of a monotonic clock: nanoseconds since it began, below `2 ^ 63` seconds. -/
def instantLimit : Nat := Nat.pow 2 63 * 1000000000

/-- Whether the moment a duration after an instant can be represented. -/
def representable (start : Nat) (duration : Duration) : Bool :=
  start + duration.nanos < instantLimit

namespace Plan

/-- The plan of one scenario. -/
def ofScenario (config : RunConfig) (firstWorker : Nat) (scenario : Scenario) :
    Except Fault Plan := do
  let rate ← match config.rateOf? scenario.name with
    | some rate => .ok rate
    | none => .error (.internal ("no rate for scenario `" ++ scenario.name ++ "`"))
  let period ← Pace.period rate
  .ok { scenario, rate, period, workers := config.workersFor rate, firstWorker }

/-- The plans of scenarios, whose workers are numbered from `firstWorker` on. -/
def ofScenarios (config : RunConfig) (firstWorker : Nat) : List Scenario → Except Fault (List Plan)
  | [] => .ok []
  | scenario :: rest => do
    let plan ← ofScenario config firstWorker scenario
    let plans ← ofScenarios config (firstWorker + plan.workers) rest
    .ok (plan :: plans)

/-- The plans of a configuration. -/
def ofConfig (config : RunConfig) : Except Fault (List Plan) := do
  let scenarios ← Scenario.all config
  ofScenarios config 0 scenarios

/-- Whether an executor can set up its clock: its deadline has to be representable and its ticks
need a distance. -/
def paceable (plan : Plan) (start : Nat) (duration : Duration) : Bool :=
  representable start duration && !plan.period.isZero

end Plan

end Cadence
