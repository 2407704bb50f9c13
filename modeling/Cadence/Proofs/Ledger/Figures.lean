import Cadence.Proofs.Ledger.Item
import Mathlib.Data.List.Perm.Basic

/-!
# Figures of a ledger

All that a ledger is asked for follows from totals in a scope: the counts are totals themselves, and
how often a duration occurs is one as well. Durations are read in ascending order, so how often each
of them occurs settles which list is read.
-/

namespace Cadence

namespace Item

/-- How many requests an item counts. -/
def requests : Item → Nat
  | .sample _ => 1
  | .iteration | .dropped | .check _ => 0

/-- How many failed requests an item counts. -/
def failures : Item → Nat
  | .sample observed => observed.failed.toNat
  | .iteration | .dropped | .check _ => 0

/-- How many checks an item counts. -/
def checks : Item → Nat
  | .check _ => 1
  | .iteration | .dropped | .sample _ => 0

/-- How many checks that passed an item counts. -/
def passes : Item → Nat
  | .check passed => passed.toNat
  | .iteration | .dropped | .sample _ => 0

/-- How often an item keeps a duration. -/
def keeps (duration : Duration) : Item → Nat
  | .sample observed => [observed.duration].count duration
  | .iteration | .dropped | .check _ => 0

theorem weighs_requests : Weighs (·.requests) requests where
  zero := rfl
  count item tally := by cases item <;> rfl

theorem weighs_failures : Weighs (·.failedRequests) failures where
  zero := rfl
  count item tally := by cases item <;> rfl

theorem weighs_checks : Weighs (·.checksTotal) checks where
  zero := rfl
  count item tally := by cases item <;> rfl

theorem weighs_passes : Weighs (·.checksPassed) passes where
  zero := rfl
  count item tally := by cases item <;> rfl

theorem weighs_keeps (duration : Duration) :
    Weighs (·.durations.count duration) (keeps duration) where
  zero := rfl
  count item tally := by
    cases item with
    | iteration | dropped | check passed => rfl
    | sample observed =>
      show ([observed.duration] ++ tally.durations).count duration = _
      rw [List.count_append, Nat.add_comm]
      rfl

end Item

namespace Ledger

variable (ledger other : Ledger) (scope : Option String)

/-- How often a duration is read in a scope is the total of how often its tallies keep it. -/
theorem count_durations (duration : Duration) :
    (ledger.durations scope).count duration =
      ledger.total scope fun tally => tally.durations.count duration :=
  ((List.mergeSort_perm ..).count_eq duration).trans List.count_flatMap

/-- Durations are read in ascending order. -/
theorem durations_ascending :
    (ledger.durations scope).Pairwise fun shorter longer => shorter.nanos ≤ longer.nanos := by
  have sorted := @List.pairwise_mergeSort Duration (fun a b => decide (a.nanos ≤ b.nanos))
    (fun a b c first second => by simp only [decide_eq_true_eq] at *; omega)
    (fun a b => by simp only [Bool.or_eq_true, decide_eq_true_eq]; omega)
    ((ledger.tallies scope).flatMap (·.durations))
  exact sorted.imp of_decide_eq_true

variable {ledger other scope}

/-- Durations in ascending order are read in that order. -/
theorem eq_durations_of_perm {durations : List Duration}
    (ascending : durations.Pairwise fun shorter longer => shorter.nanos ≤ longer.nanos)
    (same : durations.Perm (ledger.durations scope)) : durations = ledger.durations scope := by
  refine same.eq_of_pairwise ?_ ascending (durations_ascending ..)
  rintro ⟨first⟩ ⟨second⟩ - - shorter longer
  exact congrArg Duration.mk (Nat.le_antisymm shorter longer)

/-- The same durations are read in the same order. -/
theorem durations_eq_of_perm (same : (ledger.durations scope).Perm (other.durations scope)) :
    ledger.durations scope = other.durations scope :=
  eq_durations_of_perm (durations_ascending ..) same

theorem durations_eq_of_total
    (same : ∀ duration, ledger.total scope (fun tally => tally.durations.count duration) =
      other.total scope fun tally => tally.durations.count duration) :
    ledger.durations scope = other.durations scope :=
  durations_eq_of_perm <| List.perm_iff_count.mpr fun duration => by
    rw [count_durations, count_durations, same duration]

/-- What a ledger holds of a metric in a scope. -/
def figures (ledger : Ledger) (scope : Option String) : Metric → List Nat
  | .checks => [ledger.total scope (·.checksPassed), ledger.total scope (·.checksTotal)]
  | .requestFailures => [ledger.total scope (·.failedRequests), ledger.requests scope]
  | .requestDurations => (ledger.durations scope).map (·.nanos)
  | .requests => [ledger.requests scope]
  | .iterations => [ledger.iterations scope]
  | .droppedIterations => [ledger.dropped scope]

/-- A metric is reduced by its figures alone. -/
theorem observe_eq_of_figures {α : Type} [Quantity α] {metric : Metric}
    (same : ledger.figures scope metric = other.figures scope metric) (aggregation : Aggregation) :
    (ledger.observe ⟨metric, scope⟩ aggregation : Option α) =
      other.observe ⟨metric, scope⟩ aggregation := by
  cases metric with
  | requestDurations =>
    have durations : ledger.durations scope = other.durations scope :=
      List.map_injective_iff.mpr (fun ⟨_⟩ ⟨_⟩ => congrArg Duration.mk) same
    have millis : (ledger.millis scope : List α) = other.millis scope :=
      congrArg (List.map Quantity.millis) durations
    cases aggregation <;> simp only [observe, trend, durationPercentile, millis]
  | checks | requestFailures =>
    obtain ⟨part, total, -⟩ := by simpa only [figures, List.cons.injEq] using same
    cases aggregation <;> simp only [observe, checkPassRate, requestFailRate, part, total]
  | requests | iterations | droppedIterations =>
    obtain ⟨count, -⟩ := by simpa only [figures, List.cons.injEq] using same
    cases aggregation <;> simp only [observe, count]

/-- Ledgers whose totals agree hold the same of every metric. -/
theorem figures_eq_of_total
    (same : ∀ {field : Tally → Nat} {weight : Item → Nat}, Item.Weighs field weight →
      ledger.total scope field = other.total scope field) (metric : Metric) :
    ledger.figures scope metric = other.figures scope metric := by
  cases metric with
  | checks => simp only [figures, same Item.weighs_passes, same Item.weighs_checks]
  | requestFailures =>
    simp only [figures, requests, same Item.weighs_failures, same Item.weighs_requests]
  | requestDurations =>
    have durations : ledger.durations scope = other.durations scope :=
      durations_eq_of_total fun duration => same (Item.weighs_keeps duration)
    rw [figures, durations, figures]
  | requests => simp only [figures, requests, same Item.weighs_requests]
  | iterations => simp only [figures, iterations, same Item.weighs_iterations]
  | droppedIterations => simp only [figures, dropped, same Item.weighs_drops]

end Ledger

end Cadence
