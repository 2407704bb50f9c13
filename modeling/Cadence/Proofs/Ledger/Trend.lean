import Cadence.Proofs.Ledger.Recount
import Cadence.Proofs.Percentile
import Cadence.Proofs.Quantity.Percentile

/-!
# Trends of the durations

Shortest, longest and median duration are percentiles, though the first two are read off the list
and not looked for by rank; the mean lies between them. In exact arithmetic this holds as it stands.
In floating point the three percentiles agree as well, while a mean may be rounded out of its
bounds.
-/

namespace Cadence

open Nearest

section Exact

theorem Quantity.millis_eq (duration : Duration) :
    (Quantity.millis duration : ℚ) = duration.nanos / 1000000 := by
  norm_num [Quantity.millis, Quantity.ofNat]

theorem Quantity.millis_mono {shorter longer : Duration} (h : shorter.nanos ≤ longer.nanos) :
    (Quantity.millis shorter : ℚ) ≤ Quantity.millis longer := by
  rw [millis_eq, millis_eq]
  gcongr

theorem Quantity.ofFloat_zero : (Quantity.ofFloat 0 : ℚ) = 0 := isNumber_zero.ratOfFloat_eq

theorem Quantity.ofFloat_hundred : (Quantity.ofFloat 100 : ℚ) = 100 :=
  isNumber_hundred.ratOfFloat_eq

theorem Quantity.ofFloat_fifty : (Quantity.ofFloat 50 : ℚ) = Quantity.ofNat 50 :=
  (isNumber_natCast (by norm_num : 50 < 2 ^ 53)).ratOfFloat_eq

end Exact

namespace Ledger

section Reduce

variable {α : Type} [Quantity α] (ledger : Ledger) (scope : Option String)

/-- Observing durations is reducing what they are in milliseconds. -/
theorem observe_durations (aggregation : Aggregation) :
    (ledger.observe ⟨.requestDurations, scope⟩ aggregation : Option α) =
      aggregation.reduce (ledger.millis scope) := by
  cases aggregation <;> rfl

/-- In exact arithmetic, ascending durations have ascending milliseconds. -/
theorem pairwise_exact : (ledger.millis scope : List ℚ).Pairwise (· ≤ ·) :=
  List.pairwise_map.mpr ((ledger.durations_ascending scope).imp Quantity.millis_mono)

theorem length_millis (records : List Record) :
    ((ofRecords records).millis scope : List α).length = (ofRecords records).requests scope := by
  rw [millis, List.length_map, length_durations]

theorem millis_ne_nil_iff (records : List Record) :
    ((ofRecords records).millis scope : List α) ≠ [] ↔ (ofRecords records).requests scope ≠ 0 := by
  rw [← List.length_pos_iff, length_millis, Nat.pos_iff_ne_zero]

end Reduce

/-- The trends that are percentiles by another name are those percentiles. -/
structure TrendsAgree (α : Type) [Quantity α] (ledger : Ledger) (scope : Option String) : Prop where
  min : (ledger.observe ⟨.requestDurations, scope⟩ .min : Option α) =
    ledger.observe ⟨.requestDurations, scope⟩ (.percentile 0)
  max : (ledger.observe ⟨.requestDurations, scope⟩ .max : Option α) =
    ledger.observe ⟨.requestDurations, scope⟩ (.percentile 100)
  med : (ledger.observe ⟨.requestDurations, scope⟩ .med : Option α) =
    ledger.observe ⟨.requestDurations, scope⟩ (.percentile 50)

section Agreement

variable (ledger : Ledger) (scope : Option String)

theorem trendsAgree_exact : ledger.TrendsAgree ℚ scope := by
  refine ⟨?_, ?_, ?_⟩ <;> rw [observe_durations, observe_durations]
  · show (ledger.millis scope : List ℚ).head? = percentile _ (Quantity.ofFloat 0)
    rw [Quantity.ofFloat_zero, percentile_of_nonpos le_rfl]
  · show (ledger.millis scope : List ℚ).getLast? = percentile _ (Quantity.ofFloat 100)
    rw [Quantity.ofFloat_hundred, percentile_of_hundred_le le_rfl]
  · show percentile _ (Quantity.ofNat 50) = percentile _ (Quantity.ofFloat 50)
    rw [Quantity.ofFloat_fifty]

variable {ledger scope}

/-- Milliseconds are numbers in floating point. -/
theorem exists_isNumber_millis
    (large : ∀ duration ∈ ledger.durations scope, duration.nanos < 2 ^ 128) :
    ∀ x ∈ (ledger.millis scope : List Float), ∃ v, IsNumber x v := by
  intro x member
  obtain ⟨duration, seen, rfl⟩ := List.mem_map.mp member
  exact ⟨_, isNumber_millis (large duration seen)⟩

theorem trendsAgree_float
    (large : ∀ duration ∈ ledger.durations scope, duration.nanos < 2 ^ 128)
    (few : (ledger.durations scope).length ≤ 2 ^ 53) : ledger.TrendsAgree Float scope := by
  have sorted := pairwise_millis large
  have numbers := exists_isNumber_millis large
  have few' : (ledger.millis scope : List Float).length ≤ 2 ^ 53 := by
    rwa [millis, List.length_map]
  refine ⟨?_, ?_, rfl⟩ <;> rw [observe_durations, observe_durations]
  · show (ledger.millis scope : List Float).head? = percentile _ 0
    rw [Rank.percentile_of_rounded isNumber_zero (by norm_num) few' sorted numbers
      (Rank.rounded_zero _), List.head?_eq_getElem?]
  · show (ledger.millis scope : List Float).getLast? = percentile _ 100
    rw [Rank.percentile_of_rounded isNumber_hundred le_rfl few' sorted numbers
      (Rank.rounded_hundred few'), List.getLast?_eq_getElem?]

end Agreement

/-- Percentiles of ascending values lie between the values that are closest to their ranks, and grow
with the rank; below 0 and above 100 they are the first value and the last. Of the durations in a
ledger, shortest, longest and median are percentiles, and in exact arithmetic the mean lies between
the shortest and the longest. The percentiles agree in floating point, too, for durations of up to
128 binary digits of nanoseconds, and no more of them than memory holds. -/
theorem trends_consistent :
    (∀ values : List ℚ, values ≠ [] → values.Pairwise (· ≤ ·) → Interpolates values) ∧
    ∀ (records : List Record) (scope : Option String),
      let ledger := ofRecords records
      ledger.TrendsAgree ℚ scope ∧
      (ledger.requests scope ≠ 0 →
        Rises (ledger.observe ⟨.requestDurations, scope⟩ .min)
          (ledger.observe ⟨.requestDurations, scope⟩ .avg) ∧
        Rises (ledger.observe ⟨.requestDurations, scope⟩ .avg)
          (ledger.observe ⟨.requestDurations, scope⟩ .max)) ∧
      ((∀ sample ∈ History.samples scope records, sample.duration.nanos < 2 ^ 128) →
        ledger.requests scope ≤ 2 ^ 53 → ledger.TrendsAgree Float scope) := by
  refine ⟨fun values => interpolates_of_sorted, fun records scope => ⟨?_, ?_, ?_⟩⟩
  · exact trendsAgree_exact _ scope
  · intro some
    exact mean_between ((millis_ne_nil_iff scope records).mpr some) (pairwise_exact _ scope)
  · intro large few
    refine trendsAgree_float ?_ ((length_durations scope records).trans_le few)
    intro duration seen
    obtain ⟨sample, observed, rfl⟩ :=
      List.mem_map.mp ((durations_ofRecords scope records).subset seen)
    exact large sample observed

/-- The 80th percentile of four values lies between the last two of them, and two requests of two
scenarios have trends that agree. -/
theorem trends_consistent_few :
    let values : List ℚ := [1, 2, 2, 7]
    let records := [Record.sample ⟨"ping", "GET /ping", ⟨3000000⟩, false, some 200⟩,
      Record.sample ⟨"put_get", "PUT /kv", ⟨1500000⟩, true, none⟩]
    values.Pairwise (· ≤ ·) ∧ (∃ value, percentile values 80 = some value ∧ 2 ≤ value ∧ value ≤ 7) ∧
      (∀ sample ∈ History.samples none records, sample.duration.nanos < 2 ^ 128) ∧
      (ofRecords records).requests none = 2 ∧ (ofRecords records).TrendsAgree ℚ none ∧
      (ofRecords records).TrendsAgree Float none ∧
      Rises ((ofRecords records).observe ⟨.requestDurations, none⟩ .min)
        ((ofRecords records).observe ⟨.requestDurations, none⟩ .avg) ∧
      Rises ((ofRecords records).observe ⟨.requestDurations, none⟩ .avg)
        ((ofRecords records).observe ⟨.requestDurations, none⟩ .max) := by
  intro values records
  have sorted : values.Pairwise (· ≤ ·) := by decide
  have short : ∀ sample ∈ History.samples none records, sample.duration.nanos < 2 ^ 128 := by decide
  have two : (ofRecords records).requests none = 2 := by decide
  obtain ⟨interpolates, consistent⟩ := trends_consistent
  obtain ⟨exact, ordered, rounded⟩ := consistent records none
  refine ⟨sorted, ?_, short, two, exact, rounded short (two.trans_le (by norm_num)),
    ordered (by rw [two]; decide)⟩
  obtain ⟨low, value, high, first, reduced, second, least, most⟩ :=
    (interpolates values (by decide) sorted).between 80 (by norm_num) (by norm_num)
  have rank : (80 / 100 * ((values.length : ℚ) - 1)) = 12 / 5 := by
    norm_num [values]
  have lower : ⌊(12 / 5 : ℚ)⌋₊ = 2 := by norm_num [Nat.floor_eq_iff]
  have upper : ⌈(12 / 5 : ℚ)⌉₊ = 3 := by norm_num [Nat.ceil_eq_iff]
  rw [rank, lower] at first
  rw [rank, upper] at second
  obtain rfl : 2 = low := Option.some.inj first
  obtain rfl : 7 = high := Option.some.inj second
  exact ⟨value, reduced, least, most⟩

end Ledger

end Cadence
