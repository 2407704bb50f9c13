import Cadence.Fault

/-!
# Thresholds

A threshold asserts a predicate of a selected metric. `Threshold.ofParts` refuses aggregations that
the metric does not have, `Threshold.parse` reads a threshold from its two texts, and
`Judgement.ofObserved` decides one for an observed value.

Section 10.5 of the specification.
-/

namespace Cadence

/-- An assertion about one reduced metric. -/
structure Threshold where
  selector : Selector
  predicate : Predicate
  /-- Stop the run as soon as the threshold fails while it is going on. -/
  abortOnFail : Bool
  deriving Repr

namespace Threshold

/-- How a threshold is written. -/
def text (threshold : Threshold) : String :=
  threshold.selector.text ++ ": " ++ threshold.predicate.text

/-- Whether the metric has the aggregation that the predicate needs. -/
def supported (threshold : Threshold) : Bool :=
  threshold.selector.metric.supports threshold.predicate.aggregation

/-- A threshold that does not stop a run, if its metric has the aggregation. -/
def ofParts (selector : Selector) (predicate : Predicate) : Except Fault Threshold :=
  if selector.metric.supports predicate.aggregation then .ok ⟨selector, predicate, false⟩
  else .error (.threshold selector.text predicate.text
    (.unavailable predicate.aggregation selector.metric))

/-- Reads a threshold. The selector is read first; a fault in either text quotes both as written. -/
def parse (selector predicate : String) : Except Fault Threshold :=
  match Selector.parse selector with
  | .error fault => .error (.threshold selector predicate (.selector fault))
  | .ok parsedSelector =>
    match Predicate.parse predicate with
    | .error fault => .error (.threshold selector predicate (.predicate fault))
    | .ok parsedPredicate => ofParts parsedSelector parsedPredicate

/-- The threshold with its effect on a running run chosen. -/
def withAbortOnFail (threshold : Threshold) (abortOnFail : Bool) : Threshold :=
  { threshold with abortOnFail }

end Threshold

/-- The decision on one threshold. -/
structure Judgement where
  metric : String
  predicate : String
  /-- Absent when nothing was recorded in scope. -/
  observed : Option Float
  passed : Bool
  deriving Repr

/-- Judges a threshold by an observed value. Without data it does not pass. -/
def Judgement.ofObserved (threshold : Threshold) (observed : Option Float) : Judgement where
  metric := threshold.selector.text
  predicate := threshold.predicate.text
  observed := observed
  passed := observed.any threshold.predicate.holds

end Cadence
