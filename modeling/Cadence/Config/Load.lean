import Cadence.Config
import Cadence.Duration.Phrase
import Cadence.Settings

/-!
# Loading the configuration

Turns settings into a typed configuration and refuses what no run could honour. Thresholds are read
before durations, and both before anything is validated.

Section 10.4 of the specification.
-/

namespace Cadence.RunConfig

/-- Reads the phrase of a duration setting; a fault quotes it as it is written. -/
def durationSetting (name raw : String) : Except Fault Duration :=
  match Duration.ofPhrase (Text.trim raw.toList) with
  | .ok duration => .ok duration
  | .error fault => .error (.invalid (.durationSyntax name raw fault.message))

/-- Reads a threshold as it is written. -/
def thresholdSetting (written : ThresholdText) : Except Fault Threshold :=
  (Threshold.parse written.metric written.predicate).map fun threshold =>
    threshold.withAbortOnFail written.abortOnFail

/-- Reads the thresholds. Without a list of them the default ones apply. -/
def thresholdsSetting : Option (List ThresholdText) → Except Fault (List Threshold)
  | none => .ok defaultThresholds
  | some written => written.mapM thresholdSetting

/-- Gives settings their types. -/
def ofSettings (settings : Settings) : Except Fault RunConfig := do
  let thresholds ← thresholdsSetting settings.thresholds
  .ok
    { baseUrl := String.ofList (Text.trim settings.baseUrl.toList)
      keyPrefix := settings.keyPrefix
      value := settings.value
      ttl := .ofMillis settings.ttlMillis
      scenarioRates := [(pingName, settings.ratePing), (putGetName, settings.ratePutGet)]
      duration := ← durationSetting "duration" settings.duration
      gracePeriod := ← durationSetting "grace_period" settings.gracePeriod
      settle := .ofMillis settings.settleMillis
      minWorkers := settings.minWorkers
      requestTimeout := ← durationSetting "request_timeout" settings.requestTimeout
      progressInterval := ← durationSetting "progress_interval" settings.progressInterval
      abortCheckInterval := ← durationSetting "abort_check_interval" settings.abortCheckInterval
      thresholds := thresholds }

/-- Loads the configuration of a run. -/
def load (path : Option String) (environment : Environment) (view : FileView) :
    Except Fault RunConfig := do
  let settings ← (Settings.load path environment view).mapError .settings
  let config ← ofSettings settings
  config.validate
  .ok config

end Cadence.RunConfig
