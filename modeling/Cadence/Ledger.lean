import Cadence.Percentile
import Cadence.Verdict

/-!
# The ledger of a run

Workers of every scenario write into one ledger. Counts are kept per scenario and brought up to
date by every record; durations are kept as they are, so that percentiles are exact. A ledger is
read by scope: one scenario, or all of them.

Section 4.5 of the specification.
-/

namespace Cadence

/-- The counts and durations of one scenario. -/
structure Tally where
  iterations : Nat := 0
  dropped : Nat := 0
  requests : Nat := 0
  failedRequests : Nat := 0
  checksPassed : Nat := 0
  checksTotal : Nat := 0
  /-- The latest duration comes first. -/
  durations : List Duration := []
  deriving Repr, DecidableEq, Inhabited

/-- Something that is written into a ledger. -/
inductive Record where
  | iteration (scenario : String) (outcome : Outcome)
  | check (check : Check)
  | sample (sample : Sample)
  /-- An arrival that found no free worker. -/
  | dropped (scenario : String)
  deriving Repr

/-- One tally for each scenario, in the order of their names. -/
structure Ledger where
  rows : List (String × Tally)
  deriving Repr, DecidableEq, Inhabited

/-- The figures of one scenario as they are shown. -/
structure Summary where
  scenario : String
  iterations : Nat
  droppedIterations : Nat
  requests : Nat
  failedRequests : Nat
  checksPassed : Nat
  checksTotal : Nat
  p95 : Option Float
  deriving Repr

namespace Tally

def countCheck (passed : Bool) (tally : Tally) : Tally :=
  { tally with
    checksTotal := tally.checksTotal + 1
    checksPassed := tally.checksPassed + passed.toNat }

def countSample (sample : Sample) (tally : Tally) : Tally :=
  { tally with
    requests := tally.requests + 1
    failedRequests := tally.failedRequests + sample.failed.toNat
    durations := sample.duration :: tally.durations }

def countIteration (tally : Tally) : Tally :=
  { tally with iterations := tally.iterations + 1 }

def countDropped (tally : Tally) : Tally :=
  { tally with dropped := tally.dropped + 1 }

end Tally

namespace Ledger

/-- A ledger in which nothing has been written. -/
def empty : Ledger := ⟨[]⟩

/-- Changes the row of a name, which is opened in its place if it is not there. -/
def adjustRow (name : String) (change : Tally → Tally) :
    List (String × Tally) → List (String × Tally)
  | [] => [(name, change {})]
  | (other, tally) :: rest =>
    if name = other then (other, change tally) :: rest
    else if name < other then (name, change {}) :: (other, tally) :: rest
    else (other, tally) :: adjustRow name change rest

def adjust (ledger : Ledger) (name : String) (change : Tally → Tally) : Ledger :=
  ⟨adjustRow name change ledger.rows⟩

def addCheck (ledger : Ledger) (check : Check) : Ledger :=
  ledger.adjust check.scenario (Tally.countCheck check.passed)

def addSample (ledger : Ledger) (sample : Sample) : Ledger :=
  ledger.adjust sample.scenario (Tally.countSample sample)

/-- Writes one record. The checks and samples of an iteration go to the scenarios they name. -/
def add (ledger : Ledger) : Record → Ledger
  | .iteration scenario outcome =>
    outcome.samples.foldl addSample
      (outcome.checks.foldl addCheck (ledger.adjust scenario Tally.countIteration))
  | .check check => ledger.addCheck check
  | .sample sample => ledger.addSample sample
  | .dropped scenario => ledger.adjust scenario Tally.countDropped

/-- The ledger after a sequence of records. -/
def ofRecords (records : List Record) : Ledger := records.foldl add empty

/-- Whether a scenario lies in a scope; without a scope all do. -/
def inScope (scope : Option String) (scenario : String) : Bool :=
  scope.all (· == scenario)

/-- The tallies in scope. -/
def tallies (ledger : Ledger) (scope : Option String) : List Tally :=
  (ledger.rows.filter fun row => inScope scope row.1).map (·.2)

/-- One count, added up over the tallies in scope. -/
def total (ledger : Ledger) (scope : Option String) (field : Tally → Nat) : Nat :=
  ((ledger.tallies scope).map field).foldr (· + ·) 0

def iterations (ledger : Ledger) (scope : Option String) : Nat :=
  ledger.total scope (·.iterations)

def dropped (ledger : Ledger) (scope : Option String) : Nat :=
  ledger.total scope (·.dropped)

def requests (ledger : Ledger) (scope : Option String) : Nat :=
  ledger.total scope (·.requests)

/-- All durations in scope, shortest first. -/
def durations (ledger : Ledger) (scope : Option String) : List Duration :=
  ((ledger.tallies scope).flatMap (·.durations)).mergeSort fun a b => a.nanos ≤ b.nanos

section Reductions

variable {α : Type} [Quantity α]

/-- All durations in scope in milliseconds, shortest first. -/
def millis (ledger : Ledger) (scope : Option String) : List α :=
  (ledger.durations scope).map Quantity.millis

/-- The share of checks in scope that passed. -/
def checkPassRate (ledger : Ledger) (scope : Option String) : Option α :=
  Quantity.ratio (ledger.total scope (·.checksPassed)) (ledger.total scope (·.checksTotal))

/-- The share of requests in scope that failed. -/
def requestFailRate (ledger : Ledger) (scope : Option String) : Option α :=
  Quantity.ratio (ledger.total scope (·.failedRequests)) (ledger.requests scope)

/-- A percentile of the durations in scope, in milliseconds. -/
def durationPercentile (ledger : Ledger) (p : α) (scope : Option String) : Option α :=
  percentile (ledger.millis scope) p

/-- A trend of the durations in scope. -/
def trend (ledger : Ledger) (scope : Option String) : Aggregation → Option α
  | .percentile p => ledger.durationPercentile (Quantity.ofFloat p) scope
  | .med => ledger.durationPercentile (Quantity.ofNat 50) scope
  | .min => (ledger.millis scope).head?
  | .max => (ledger.millis scope).getLast?
  | .avg => mean (ledger.millis scope)
  | .rate | .count => none

/-- Reduces the selected metric. Shares and trends need data in scope; counts are always there. -/
def observe (ledger : Ledger) (selector : Selector) (aggregation : Aggregation) : Option α :=
  let scope := selector.scenario
  match selector.metric, aggregation with
  | .checks, .rate => ledger.checkPassRate scope
  | .requestFailures, .rate => ledger.requestFailRate scope
  | .requestDurations, aggregation => ledger.trend scope aggregation
  | .requests, .count => some (Quantity.ofNat (ledger.requests scope))
  | .iterations, .count => some (Quantity.ofNat (ledger.iterations scope))
  | .droppedIterations, .count => some (Quantity.ofNat (ledger.dropped scope))
  | _, _ => none

end Reductions

/-- Judges a threshold by what has been written so far (4.5). -/
def judge (ledger : Ledger) (threshold : Threshold) : Judgement :=
  Judgement.ofObserved threshold (ledger.observe threshold.selector threshold.predicate.aggregation)

/-- Judges all thresholds of a run. -/
def evaluate (ledger : Ledger) (thresholds : List Threshold) : Verdict :=
  Verdict.ofJudgements (thresholds.map ledger.judge)

/-- The counts of every scenario, without latency; cheap enough for a progress line. -/
def progress (ledger : Ledger) : List Summary :=
  ledger.rows.map fun (scenario, tally) =>
    { scenario
      iterations := tally.iterations
      droppedIterations := tally.dropped
      requests := tally.requests
      failedRequests := tally.failedRequests
      checksPassed := tally.checksPassed
      checksTotal := tally.checksTotal
      p95 := none }

/-- The counts of every scenario with the 95th percentile of its durations. -/
def summary (ledger : Ledger) : List Summary :=
  ledger.progress.map fun row =>
    { row with p95 := ledger.durationPercentile 95 (some row.scenario) }

end Ledger

/-- The share of checks of a scenario that passed. -/
def Summary.checkPassRate (summary : Summary) : Option Float :=
  Quantity.ratio summary.checksPassed summary.checksTotal

end Cadence
