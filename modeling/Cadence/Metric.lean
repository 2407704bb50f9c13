import Cadence.Decimal.Layout

/-!
# Metrics and their reductions

What a run measures, how a measured metric is reduced to one number, and which reductions make
sense for which metric.

Section 10.5 of the specification.
-/

namespace Cadence

/-- What the ledger of a run can be asked for. -/
inductive Metric where
  /-- The share of checks that passed. -/
  | checks
  /-- The share of requests that failed. -/
  | requestFailures
  /-- Request durations in milliseconds. -/
  | requestDurations
  /-- The number of requests. -/
  | requests
  /-- The number of completed iterations. -/
  | iterations
  /-- The number of arrivals that found no free worker. -/
  | droppedIterations
  deriving Repr, DecidableEq

/-- How a metric is reduced to one number. -/
inductive Aggregation where
  | rate
  | count
  | percentile (p : Float)
  | avg
  | min
  | max
  | med
  deriving Repr, BEq

namespace Metric

/-- All metrics, in the order in which names are looked up. -/
def all : List Metric :=
  [checks, requestFailures, requestDurations, requests, iterations, droppedIterations]

/-- The name of a metric in selectors and reports. -/
def name : Metric → String
  | checks => "checks"
  | requestFailures => "http_req_failed"
  | requestDurations => "http_req_duration"
  | requests => "http_reqs"
  | iterations => "iterations"
  | droppedIterations => "dropped_iterations"

/-- The metric of that name. -/
def ofName? (name : String) : Option Metric :=
  all.find? fun metric => metric.name == name

/-- Shares have a rate, durations have percentiles and the other trends, numbers have a count. -/
def supports : Metric → Aggregation → Bool
  | checks, .rate | requestFailures, .rate => true
  | requestDurations, .percentile _ | requestDurations, .avg | requestDurations, .min
  | requestDurations, .max | requestDurations, .med => true
  | requests, .count | iterations, .count | droppedIterations, .count => true
  | _, _ => false

@[simp] theorem ofName?_name (metric : Metric) : ofName? metric.name = some metric := by
  cases metric <;> decide

theorem name_of_ofName? {name : String} {metric : Metric} (h : ofName? name = some metric) :
    metric.name = name := by
  simpa using List.find?_some h

end Metric

namespace Aggregation

/-- How an aggregation is written in a predicate. -/
def text : Aggregation → String
  | rate => "rate"
  | count => "count"
  | percentile p => "p(" ++ Decimal.plain p ++ ")"
  | avg => "avg"
  | min => "min"
  | max => "max"
  | med => "med"

end Aggregation

end Cadence
