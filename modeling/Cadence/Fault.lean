import Cadence.Duration
import Cadence.Predicate
import Cadence.Selector

/-!
# Faults

Everything that keeps a run from starting or from being reported, as causes. What happens to a
single request or iteration is no fault: it is recorded as a check or a sample. `Fault.message`
gives the wording, `Fault.isConfig` says whether the user's configuration is to blame.

Sections 7 and 10.2 of the specification.
-/

namespace Cadence

/-- Why a threshold is refused. -/
inductive ThresholdFault where
  | selector (fault : SelectorFault)
  | predicate (fault : PredicateFault)
  /-- Found when a threshold is built. -/
  | unavailable (aggregation : Aggregation) (metric : Metric)
  /-- Found when a whole configuration is checked. -/
  | unsupported
  | unknownScenario (name : String)
  | stated (reason : String)
  deriving Repr

/-- What is said about a refused threshold. -/
def ThresholdFault.message : ThresholdFault → String
  | selector fault => fault.message
  | predicate fault => fault.message
  | unavailable aggregation metric =>
    "aggregation `" ++ aggregation.text ++ "` is not available for metric `" ++ metric.name ++ "`"
  | unsupported => "aggregation not available for this metric"
  | unknownScenario name => "unknown scenario `" ++ name ++ "`"
  | stated reason => reason

/-- The least and the greatest rate at which a scenario may be driven, per second. -/
def minRate : Float := 1 / 86400

@[inherit_doc minRate]
def maxRate : Float := 10000

/-- The largest pool of workers a scenario may have. -/
def maxWorkers : Nat := 10000

private def rateRange : String :=
  "must be between " ++ Decimal.plain minRate ++ " and " ++ Decimal.plain maxRate ++ " per second"

/-- Why a value of the configuration is refused. -/
inductive Invalid where
  | baseUrlScheme (url : String)
  | baseUrlSyntax (url reason : String)
  | baseUrlOpaque (url : String)
  | emptyKeyPrefix
  | noScenario
  | unknownScenario (name : String)
  | rate (rate : Float)
  /-- Found when the time between two arrivals is worked out. -/
  | ratePeriod (rate : Float) (fault : SecondsFault)
  | scenarioRate (scenario : String) (rate : Float)
  | durationZero (setting : String)
  | durationSyntax (setting raw reason : String)
  | workers (count : Nat)
  | stated (message : String)
  deriving Repr

/-- What is said about a refused value. -/
def Invalid.message : Invalid → String
  | baseUrlScheme url => "base_url must be an http(s) URL, got `" ++ url ++ "`"
  | baseUrlSyntax url reason => "invalid base_url `" ++ url ++ "`: " ++ reason
  | baseUrlOpaque url => "base_url `" ++ url ++ "` cannot carry request paths"
  | emptyKeyPrefix => "key_prefix must not be empty"
  | noScenario => "at least one scenario must be configured"
  | unknownScenario name => "unknown scenario `" ++ name ++ "`"
  | rate r => "rate " ++ rateRange ++ ", got " ++ Decimal.plain r
  | ratePeriod r fault => "rate " ++ Decimal.plain r ++ ": " ++ fault.message
  | scenarioRate scenario r =>
    "rate for scenario `" ++ scenario ++ "` " ++ rateRange ++ ", got " ++ Decimal.plain r
  | durationZero setting => setting ++ " must be > 0"
  | durationSyntax setting raw reason =>
    setting ++ ": invalid duration `" ++ raw ++ "`: " ++ reason
  | workers count =>
    "min_workers must be between 1 and " ++ Nat.repr maxWorkers ++ ", got " ++ Nat.repr count
  | stated message => message

/-- Why settings could not be brought together. -/
inductive SettingsFault where
  /-- A file does not have the syntax of its format, or no table at its top. -/
  | fileSyntax
  /-- A setting has a value of another kind than it needs. -/
  | kind (found expected : String) (key origin : Option String)
  /-- The settings do not have the form that is asked for. -/
  | shape (text : String)
  /-- A file is missing or of an unknown format. -/
  | file (text : String)
  deriving Repr

private def SettingsFault.context (word : String) (text : Option String) : String :=
  match text with
  | none => ""
  | some text => word ++ text

/-- What is said about settings that could not be brought together. -/
def SettingsFault.message : SettingsFault → String
  | fileSyntax => "file syntax"
  | kind found expected key origin =>
    "invalid type: " ++ found ++ ", expected " ++ expected ++
      context " for key `" (key.map (· ++ "`")) ++ context " in " origin
  | shape text => text
  | file text => text

/-- Everything that ends a run without a verdict. -/
inductive Fault where
  | settings (fault : SettingsFault)
  | invalid (cause : Invalid)
  | threshold (selector predicate : String) (fault : ThresholdFault)
  | io (message : String)
  | serialization (message : String)
  | internal (message : String)
  deriving Repr

namespace Fault

/-- The line that is shown for a fault. -/
def message : Fault → String
  | settings fault => "configuration error: " ++ fault.message
  | invalid cause => "validation error: " ++ cause.message
  | threshold selector predicate fault =>
    "invalid threshold `" ++ selector ++ ": " ++ predicate ++ "`: " ++ fault.message
  | io text => "I/O error: " ++ text
  | serialization text => "serialization error: " ++ text
  | internal text => "internal error: " ++ text

/-- Whether the fault lies in what the user configured. -/
def isConfig : Fault → Bool
  | settings _ | invalid _ | threshold .. => true
  | io _ | serialization _ | internal _ => false

end Fault

end Cadence
