import Cadence.Pace
import Cadence.Quantity
import Cadence.Threshold

/-!
# The configuration of a run

The typed configuration, its defaults, and `RunConfig.validate`, which refuses what no run could
honour.

Section 10.4 of the specification.
-/

namespace Cadence

/-- The name of the health probe. -/
def pingName : String := "ping"

/-- The name of the scenario that writes and reads back. -/
def putGetName : String := "put_get"

structure RunConfig where
  baseUrl : String
  keyPrefix : String
  /-- What is written under every key. -/
  value : String
  /-- How long a written key lives. -/
  ttl : Duration
  /-- Arrivals per second of each scenario: a map by name, listed in the order of names. -/
  scenarioRates : List (String × Float)
  duration : Duration
  /-- How long iterations may go on after the deadline. -/
  gracePeriod : Duration
  /-- How long a worker stays occupied after an iteration. -/
  settle : Duration
  /-- The least size of a pool. -/
  minWorkers : Nat
  requestTimeout : Duration
  progressInterval : Duration
  abortCheckInterval : Duration
  thresholds : List Threshold
  deriving Repr

namespace RunConfig

/-- The thresholds of a run for which none are configured. -/
def defaultThresholds : List Threshold :=
  [⟨⟨.requestFailures, none⟩, ⟨.rate, .lt, 0.01⟩, false⟩,
    ⟨⟨.requestDurations, none⟩, ⟨.percentile 95, .lt, 500⟩, false⟩,
    ⟨⟨.checks, some pingName⟩, ⟨.rate, .gt, 0.99⟩, false⟩,
    ⟨⟨.checks, some putGetName⟩, ⟨.rate, .gt, 0.98⟩, false⟩]

/-- The configuration of a run for which nothing is configured (6 and 10.4). -/
def default : RunConfig where
  baseUrl := "http://localhost:3000"
  keyPrefix := "testkey"
  value := "hola"
  ttl := .ofMillis 100000
  scenarioRates := [(pingName, 50), (putGetName, 25)]
  duration := .ofSecs 120
  gracePeriod := .ofSecs 30
  settle := .ofMillis 100
  minWorkers := 10
  requestTimeout := .ofSecs 10
  progressInterval := .ofSecs 10
  abortCheckInterval := .ofSecs 1
  thresholds := defaultThresholds

/-- The rate of a scenario, if it is configured. -/
def rateOf? (config : RunConfig) (scenario : String) : Option Float :=
  config.scenarioRates.lookup scenario

/-- The size of the pool for a rate: one worker for each arrival of a second, but no fewer than
configured and no more than a pool may have (3 and 10.4). -/
def workersFor (config : RunConfig) (rate : Float) : Nat :=
  let needed := Quantity.ceilFloat (Quantity.clampFloat 1 (Float.ofNat maxWorkers) rate)
  min (max needed config.minWorkers) maxWorkers

/-- Whether a text begins with a scheme, in any letter case, and goes on behind it. -/
def hasScheme (scheme url : String) : Bool :=
  let cs := url.toList
  let n := scheme.toList.length
  (cs.take n).map Char.toLower == scheme.toList && n < cs.length

/-- The durations that have to be positive, with the names of their settings. -/
def positiveDurations (config : RunConfig) : List (String × Duration) :=
  [("duration", config.duration), ("grace_period", config.gracePeriod),
    ("request_timeout", config.requestTimeout), ("progress_interval", config.progressInterval),
    ("abort_check_interval", config.abortCheckInterval)]

/-- What is wrong with a threshold within a configuration. -/
def thresholdFault? (config : RunConfig) (threshold : Threshold) : Option Fault :=
  let refused (fault : ThresholdFault) : Option Fault :=
    some (.threshold threshold.selector.text threshold.predicate.text fault)
  if !threshold.supported then refused .unsupported
  else match threshold.selector.scenario with
    | none => none
    | some scenario =>
      if (config.rateOf? scenario).isSome then none else refused (.unknownScenario scenario)

/-- The first thing that is wrong with a configuration. -/
def fault? (config : RunConfig) : Option Fault :=
  let invalid (wrong : Bool) (cause : Invalid) : Option Fault :=
    if wrong then some (.invalid cause) else none
  invalid (!(hasScheme "http://" config.baseUrl || hasScheme "https://" config.baseUrl))
      (.baseUrlScheme config.baseUrl)
  <|> invalid config.keyPrefix.isEmpty .emptyKeyPrefix
  <|> invalid config.scenarioRates.isEmpty .noScenario
  <|> config.scenarioRates.findSome? (fun (scenario, rate) =>
      invalid (!Pace.inRange rate) (.scenarioRate scenario rate))
  <|> config.positiveDurations.findSome? (fun (setting, value) =>
      invalid value.isZero (.durationZero setting))
  <|> invalid (config.minWorkers == 0 || maxWorkers < config.minWorkers)
      (.workers config.minWorkers)
  <|> config.thresholds.findSome? config.thresholdFault?

/-- Refuses a configuration that no run could honour (10.4). -/
def validate (config : RunConfig) : Except Fault Unit :=
  match config.fault? with
  | some fault => .error fault
  | none => .ok ()

end RunConfig

end Cadence
