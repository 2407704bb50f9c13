import Cadence.Proofs.Ledger.Figures
import Cadence.Proofs.Quantity.Share

/-!
# Ledgers and recounts

A ledger is brought up to date by every record, with a row for each scenario that is named in any of
the ways in which records name one. A recount goes through the plain history of records instead and
picks what lies in a scope. Both come to the same: counts and shares are those of the recount, and
the durations that are reduced are those of the recount, in ascending order.
-/

namespace Cadence

open Ledger (inScope)

section Sums

variable {α : Type} (p : α → Bool) (l : List α)

theorem sum_map_ite_zero (f : α → Nat) :
    (l.map fun x => if p x then f x else 0).sum = ((l.filter p).map f).sum := by
  simp [List.sum_map_ite]

theorem sum_toNat : (l.map fun x => (p x).toNat).sum = l.countP p := by
  induction l with
  | nil => rfl
  | cons x l ih =>
    rw [List.map_cons, List.sum_cons, ih, List.countP_cons]
    cases p x <;> simp [Nat.add_comm]

theorem countP_concat (x : α) : (l ++ [x]).countP p = l.countP p + (p x).toNat := by
  cases found : p x <;> simp [found]

end Sums

namespace Record

/-- Whether a record is a completed iteration in a scope. -/
def isIteration (scope : Option String) : Record → Bool
  | .iteration scenario _ => inScope scope scenario
  | .check _ | .sample _ | .dropped _ => false

/-- Whether a record is a dropped arrival in a scope. -/
def isDrop (scope : Option String) : Record → Bool
  | .dropped scenario => inScope scope scenario
  | .iteration _ _ | .check _ | .sample _ => false

/-- The checks that a record reports. -/
def checks : Record → List Check
  | .iteration _ outcome => outcome.checks
  | .check made => [made]
  | .sample _ | .dropped _ => []

/-- The samples that a record reports. -/
def samples : Record → List Sample
  | .iteration _ outcome => outcome.samples
  | .sample observed => [observed]
  | .check _ | .dropped _ => []

/-- The checks of a record that lie in a scope. -/
def checksIn (scope : Option String) (record : Record) : List Check :=
  record.checks.filter fun check => inScope scope check.scenario

/-- The samples of a record that lie in a scope. -/
def samplesIn (scope : Option String) (record : Record) : List Sample :=
  record.samples.filter fun sample => inScope scope sample.scenario

/-- Whether a record has something to say about a metric in a scope. -/
def concerns (metric : Metric) (scope : Option String) (record : Record) : Bool :=
  match metric with
  | .checks => !(record.checksIn scope).isEmpty
  | .requestFailures | .requestDurations | .requests => !(record.samplesIn scope).isEmpty
  | .iterations => record.isIteration scope
  | .droppedIterations => record.isDrop scope

/-- What a record weighs in a scope: whatever it is, in its own scenario, and what it reports, in
the scenarios that are named there. -/
theorem sum_weightIn (scope : Option String) (weight : Item → Nat) (record : Record) :
    (record.items.map (Ledger.weightIn scope weight)).sum =
      (record.isIteration scope).toNat * weight .iteration +
        (record.isDrop scope).toNat * weight .dropped +
        ((record.checksIn scope).map fun check => weight (.check check.passed)).sum +
        ((record.samplesIn scope).map fun sample => weight (.sample sample)).sum := by
  rw [checksIn, samplesIn, ← sum_map_ite_zero, ← sum_map_ite_zero]
  cases record with
  | iteration scenario outcome =>
    simp [items, isIteration, isDrop, checks, samples, Ledger.weightIn, Function.comp_def,
      Bool.toNat, Bool.cond_eq_ite, Nat.add_assoc]
  | check made => simp [items, isIteration, isDrop, checks, samples, Ledger.weightIn]
  | sample observed => simp [items, isIteration, isDrop, checks, samples, Ledger.weightIn]
  | dropped scenario =>
    simp [items, isIteration, isDrop, checks, samples, Ledger.weightIn, Bool.toNat,
      Bool.cond_eq_ite]

end Record

namespace History

variable (scope : Option String) (records : List Record)

/-- The number of completed iterations in a scope. -/
def iterations : Nat := records.countP (·.isIteration scope)

/-- The number of dropped arrivals in a scope. -/
def drops : Nat := records.countP (·.isDrop scope)

/-- The checks in a scope. -/
def checks : List Check := records.flatMap (·.checksIn scope)

/-- The samples in a scope. -/
def samples : List Sample := records.flatMap (·.samplesIn scope)

/-- Nothing is lost with records that have nothing to say. -/
theorem flatMap_filter {α : Type} (f : Record → List α) :
    (records.filter fun record => !(f record).isEmpty).flatMap f = records.flatMap f := by
  induction records with
  | nil => rfl
  | cons record records ih =>
    rw [List.filter_cons]
    split
    next => rw [List.flatMap_cons, ih, List.flatMap_cons]
    next silent =>
      have none : f record = [] := by simpa using silent
      rw [ih, List.flatMap_cons, none, List.nil_append]

end History

namespace Ledger

section Totals

variable {field : Tally → Nat} {weight : Item → Nat}

/-- A scope counts no more than all scenarios together. -/
theorem total_le_all (ledger : Ledger) (scope : Option String) (field : Tally → Nat) :
    ledger.total scope field ≤ ledger.total none field := by
  obtain ⟨rows⟩ := ledger
  rw [total_rows, total_rows]
  refine List.sum_le_sum fun row _ => ?_
  split <;> simp [inScope]

/-- A total is what a recount of the history weighs. -/
theorem total_ofRecords (weighs : Item.Weighs field weight) (scope : Option String)
    (records : List Record) :
    (ofRecords records).total scope field =
      History.iterations scope records * weight .iteration +
        History.drops scope records * weight .dropped +
        ((History.checks scope records).map fun check => weight (.check check.passed)).sum +
        ((History.samples scope records).map fun sample => weight (.sample sample)).sum := by
  -- From the end, since a record is added to the ledger of all that were written before it.
  induction records using List.reverseRecOn with
  | nil =>
    simp [ofRecords, total_rows, empty, History.iterations, History.drops, History.checks,
      History.samples]
  | append_singleton records record ih =>
    rw [ofRecords_concat, total_add weighs, ih, Record.sum_weightIn]
    simp only [History.iterations, History.drops, History.checks, History.samples, countP_concat,
      List.flatMap_append, List.flatMap_singleton, List.map_append, List.sum_append, Nat.add_mul]
    omega

end Totals

section Recounts

variable (scope : Option String) (records : List Record)

theorem iterations_ofRecords :
    (ofRecords records).iterations scope = History.iterations scope records := by
  refine (total_ofRecords Item.weighs_iterations scope records).trans ?_
  simp [Item.iterations]

theorem dropped_ofRecords : (ofRecords records).dropped scope = History.drops scope records := by
  refine (total_ofRecords Item.weighs_drops scope records).trans ?_
  simp [Item.drops]

theorem requests_ofRecords :
    (ofRecords records).requests scope = (History.samples scope records).length := by
  refine (total_ofRecords Item.weighs_requests scope records).trans ?_
  simp [Item.requests]

theorem failures_ofRecords :
    (ofRecords records).total scope (·.failedRequests) =
      (History.samples scope records).countP (·.failed) := by
  refine (total_ofRecords Item.weighs_failures scope records).trans ?_
  simp [Item.failures, sum_toNat]

theorem checks_ofRecords :
    (ofRecords records).total scope (·.checksTotal) = (History.checks scope records).length := by
  refine (total_ofRecords Item.weighs_checks scope records).trans ?_
  simp [Item.checks]

theorem passes_ofRecords :
    (ofRecords records).total scope (·.checksPassed) =
      (History.checks scope records).countP (·.passed) := by
  refine (total_ofRecords Item.weighs_passes scope records).trans ?_
  simp [Item.passes, sum_toNat]

/-- The durations that are read are those of the samples in scope, each as often. -/
theorem durations_ofRecords :
    ((ofRecords records).durations scope).Perm
      ((History.samples scope records).map (·.duration)) := by
  refine List.perm_iff_count.mpr fun duration => ?_
  rw [count_durations, total_ofRecords (Item.weighs_keeps duration)]
  simp [Item.keeps, List.count_eq_countP, ← sum_toNat, Bool.toNat, Bool.cond_eq_ite,
    Function.comp_def]

/-- As many durations are read as there are requests. -/
theorem length_durations :
    ((ofRecords records).durations scope).length = (ofRecords records).requests scope := by
  rw [(durations_ofRecords scope records).length_eq, requests_ofRecords, List.length_map]

/-- Records that have nothing to say about a metric leave its figures alone. -/
theorem figures_filter (metric : Metric) :
    (ofRecords (records.filter (·.concerns metric scope))).figures scope metric =
      (ofRecords records).figures scope metric := by
  cases metric with
  | checks =>
    simp only [figures, passes_ofRecords, checks_ofRecords, Record.concerns, History.checks,
      History.flatMap_filter]
  | requestFailures | requests =>
    simp only [figures, failures_ofRecords, requests_ofRecords, Record.concerns, History.samples,
      History.flatMap_filter]
  | requestDurations =>
    have perm := durations_ofRecords scope (records.filter (·.concerns .requestDurations scope))
    simp only [Record.concerns, History.samples, History.flatMap_filter] at perm
    exact congrArg _ (durations_eq_of_perm (perm.trans (durations_ofRecords ..).symm))
  | iterations =>
    simp [figures, iterations_ofRecords, History.iterations, Record.concerns, List.countP_filter]
  | droppedIterations =>
    simp [figures, dropped_ofRecords, History.drops, Record.concerns, List.countP_filter]

end Recounts

end Ledger

/-- Reduces observed values as a trend of them. -/
def Aggregation.reduce {α : Type} [Quantity α] (values : List α) : Aggregation → Option α
  | .percentile p => Cadence.percentile values (Quantity.ofFloat p)
  | .med => Cadence.percentile values (Quantity.ofNat 50)
  | .min => values.head?
  | .max => values.getLast?
  | .avg => mean values
  | .rate | .count => none

/-- A rate is the share of a part in a total. -/
structure IsShare (part total : Nat) (rate : Option Float) : Prop where
  share : total ≠ 0 → rate = some (Float.ofNat part / Float.ofNat total)
  none_iff : rate = none ↔ total = 0
  bounds : total < 2 ^ 64 → ∀ value, rate = some value → 0 ≤ value ∧ value ≤ 1

theorem isShare_ratio {part total : Nat} (within : part ≤ total) :
    IsShare part total (Quantity.ratio part total) where
  share some := if_neg some
  none_iff := by simp [Quantity.ratio]
  bounds large _ h := Nearest.ratio_bounds within large h

/-- What a ledger shows in a scope is what a recount of its history comes to there. -/
structure Recount (records : List Record) (scope : Option String) : Prop where
  iterations : (Ledger.ofRecords records).iterations scope = History.iterations scope records
  dropped : (Ledger.ofRecords records).dropped scope = History.drops scope records
  requests : (Ledger.ofRecords records).requests scope = (History.samples scope records).length
  checkPassRate : IsShare ((History.checks scope records).countP (·.passed))
    (History.checks scope records).length ((Ledger.ofRecords records).checkPassRate scope)
  requestFailRate : IsShare ((History.samples scope records).countP (·.failed))
    (History.samples scope records).length ((Ledger.ofRecords records).requestFailRate scope)
  durations : ((Ledger.ofRecords records).durations scope).Perm
    ((History.samples scope records).map (·.duration))
  trend : ∀ aggregation, (Ledger.ofRecords records).observe ⟨.requestDurations, scope⟩ aggregation =
    aggregation.reduce ((Ledger.ofRecords records).millis scope : List Float)
  /-- The numbers that are reduced are those of the samples, in the one order in which they
  ascend. -/
  ascending : (∀ sample ∈ History.samples scope records, sample.duration.nanos < 2 ^ 128) →
    ∀ values : List Float, values = (Ledger.ofRecords records).millis scope ↔
      values.Perm ((History.samples scope records).map (Quantity.millis ·.duration)) ∧
        values.Pairwise (· ≤ ·)
  /-- Records that have nothing to say about a metric in the scope may be added or left out
  anywhere. -/
  unmoved : ∀ (metric : Metric) (others : List Record),
    others.filter (·.concerns metric scope) = records.filter (·.concerns metric scope) →
      (Ledger.ofRecords others).figures scope metric =
        (Ledger.ofRecords records).figures scope metric ∧
      ∀ aggregation,
        ((Ledger.ofRecords others).observe ⟨metric, scope⟩ aggregation : Option Float) =
          (Ledger.ofRecords records).observe ⟨metric, scope⟩ aggregation

section Values

variable {scope : Option String} {records : List Record}

/-- The values that are reduced are those of the samples in scope. -/
theorem millis_perm {α : Type} [Quantity α] :
    ((Ledger.ofRecords records).millis scope : List α).Perm
      ((History.samples scope records).map (Quantity.millis ·.duration)) := by
  have := (Ledger.durations_ofRecords scope records).map fun duration =>
    (Quantity.millis duration : α)
  rwa [List.map_map] at this

/-- Ascending durations have ascending milliseconds. -/
theorem Ledger.pairwise_millis {ledger : Ledger}
    (large : ∀ duration ∈ ledger.durations scope, duration.nanos < 2 ^ 128) :
    (ledger.millis scope : List Float).Pairwise (· ≤ ·) :=
  List.pairwise_map.mpr ((ledger.durations_ascending scope).imp_of_mem fun _ seen below =>
    Nearest.millis_le below (large _ seen))

variable (large : ∀ sample ∈ History.samples scope records, sample.duration.nanos < 2 ^ 128)

include large

theorem millis_ascending :
    ((Ledger.ofRecords records).millis scope : List Float).Pairwise (· ≤ ·) := by
  refine Ledger.pairwise_millis fun duration seen => ?_
  obtain ⟨sample, observed, rfl⟩ :=
    List.mem_map.mp ((Ledger.durations_ofRecords scope records).subset seen)
  exact large sample observed

/-- Milliseconds that are equally large are the same number, so one order is ascending. -/
theorem eq_millis_iff (values : List Float) :
    values = (Ledger.ofRecords records).millis scope ↔
      values.Perm ((History.samples scope records).map (Quantity.millis ·.duration)) ∧
        values.Pairwise (· ≤ ·) := by
  constructor
  · rintro rfl
    exact ⟨millis_perm, millis_ascending large⟩
  · rintro ⟨perm, sorted⟩
    -- Floating point has no antisymmetric order because of its two zeros; milliseconds, which
    -- are never negative, have only one.
    refine (perm.trans millis_perm.symm).eq_of_pairwise ?_ sorted (millis_ascending large)
    intro first second seen seen' below above
    obtain ⟨sample, observed, rfl⟩ := List.mem_map.mp (perm.subset seen)
    obtain ⟨sample', observed', rfl⟩ := List.mem_map.mp (millis_perm.subset seen')
    exact (Nearest.isNumber_millis (large sample observed)).antisymm
      (Nearest.isNumber_millis (large sample' observed')) below above

end Values

/-- A ledger shows in every scope what a recount of its history comes to there. -/
theorem Ledger.eq_recount (records : List Record) (scope : Option String) :
    Recount records scope where
  iterations := iterations_ofRecords scope records
  dropped := dropped_ofRecords scope records
  requests := requests_ofRecords scope records
  checkPassRate := by
    rw [checkPassRate, passes_ofRecords, checks_ofRecords]
    exact isShare_ratio List.countP_le_length
  requestFailRate := by
    rw [requestFailRate, failures_ofRecords, requests_ofRecords]
    exact isShare_ratio List.countP_le_length
  durations := durations_ofRecords scope records
  trend aggregation := by cases aggregation <;> rfl
  ascending := eq_millis_iff
  unmoved metric others same := by
    have figures : (ofRecords others).figures scope metric =
        (ofRecords records).figures scope metric := by
      rw [← figures_filter scope others, same, figures_filter scope records]
    exact ⟨figures, observe_eq_of_figures figures⟩

end Cadence
