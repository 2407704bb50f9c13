import Cadence.Config
import Cadence.Proofs.Ledger.Recount
import Cadence.Proofs.Quantity.Percentile

/-!
# Judgements of a ledger

How thresholds on rates and on percentiles are judged, in terms of what the ledger has counted. A
bound close to one tells all from half, a bound above zero is kept by none, and a bound on a high
percentile is kept if all durations keep it with a nanosecond to spare. Nothing passes without data.
-/

namespace Cadence

open Nearest

/-- A share satisfies a predicate if there is a total, and the quotient does. -/
theorem any_ratio {part total : Nat} {p : Float → Bool} :
    (Quantity.ratio part total : Option Float).any p = true ↔
      total ≠ 0 ∧ p (Float.ofNat part / Float.ofNat total) = true := by
  unfold Quantity.ratio
  split_ifs with none
  · simp [none]
  · exact (and_iff_right none).symm

namespace Ledger

variable {ledger : Ledger} {scope : Option String} {bound : Float} {b : ℚ} {failFast : Bool}

/-- If all checks have passed, a bound below one is kept as soon as there is a check. -/
theorem judge_checks_of_all (worth : IsNumber bound b) (below : b < 1)
    (all : ledger.total scope (·.checksPassed) = ledger.total scope (·.checksTotal))
    (few : ledger.total scope (·.checksTotal) < 2 ^ 64) :
    (ledger.judge ⟨⟨.checks, scope⟩, ⟨.rate, .gt, bound⟩, failFast⟩).passed = true ↔
      ledger.total scope (·.checksTotal) ≠ 0 := by
  refine any_ratio.trans (and_iff_left_of_imp fun some => ?_)
  rw [all]
  have share := isNumber_share_self (Nat.pos_of_ne_zero some) (few.trans (by norm_num))
  exact decide_eq_true ((worth.lt_iff share).mpr below)

/-- If no more than half of the checks have passed, a bound close to one is not kept. -/
theorem judge_checks_of_half (worth : IsNumber bound b) (above : 5 / 8 ≤ b)
    (half : 2 * ledger.total scope (·.checksPassed) ≤ ledger.total scope (·.checksTotal))
    (few : ledger.total scope (·.checksTotal) < 2 ^ 64) :
    (ledger.judge ⟨⟨.checks, scope⟩, ⟨.rate, .gt, bound⟩, failFast⟩).passed = false := by
  refine Bool.eq_false_iff.mpr fun passed => ?_
  obtain ⟨some, kept⟩ := any_ratio.mp passed
  obtain ⟨v, share, most⟩ :=
    isNumber_share_half (Nat.pos_of_ne_zero some) half (few.trans (by norm_num))
  exact absurd ((worth.lt_iff share).mp (of_decide_eq_true kept)) (most.trans above).not_gt

/-- If no request has failed, a bound above zero is kept as soon as there is a request. -/
theorem judge_failures_of_none (worth : IsNumber bound b) (pos : 0 < b)
    (none : ledger.total scope (·.failedRequests) = 0) (few : ledger.requests scope < 2 ^ 64) :
    (ledger.judge ⟨⟨.requestFailures, scope⟩, ⟨.rate, .lt, bound⟩, failFast⟩).passed = true ↔
      ledger.requests scope ≠ 0 := by
  refine any_ratio.trans (and_iff_left_of_imp fun some => ?_)
  rw [none]
  have share := isNumber_share_zero (Nat.pos_of_ne_zero some) (few.trans (by norm_num))
  exact decide_eq_true ((share.lt_iff worth).mpr pos)

section Durations

/-- What is shorter than half a second lies below a number that is. -/
theorem isNumber_millis_lt {duration : Duration} (short : duration.nanos < 500000000) :
    ∃ v, IsNumber (Quantity.millis duration) v ∧ v ≤ 500 - 2 ^ (-20 : ℤ) := by
  refine ⟨_, isNumber_millis (short.trans (by norm_num)), ?_⟩
  have whole : nearest duration.nanos = duration.nanos :=
    nearest_natCast (short.trans (by norm_num))
  have million : nearest (1000000 : ℕ) = 1000000 := by
    exact_mod_cast nearest_natCast (by norm_num : 1000000 < 2 ^ 53)
  have most : (duration.nanos : ℚ) ≤ 499999999 := by
    exact_mod_cast (by omega : duration.nanos ≤ 499999999)
  have room : (duration.nanos / 1000000 : ℚ) ≤ 500 - 2 ^ (-20 : ℤ) := by
    norm_num
    linarith
  rw [whole, million]
  calc nearest (duration.nanos / 1000000) ≤ nearest (500 - 2 ^ (-20 : ℤ)) := nearest_mono room
    _ = 500 - 2 ^ (-20 : ℤ) :=
      nearest_eq_of_digits 524287999 (-20) (by norm_num) (by norm_num) (by norm_num) (by norm_num)

variable {p : Float} {q : ℚ} (worth : IsNumber p q) (most : q ≤ 96)
  (short : ∀ duration ∈ ledger.durations scope, duration.nanos < 500000000)
  (few : (ledger.durations scope).length < 2 ^ 64)

include worth most short few

/-- If all requests took less than half a second, so did a percentile of them that is not too
high. -/
theorem percentile_millis_lt (some : ledger.durations scope ≠ []) :
    ∃ x v, percentile (ledger.millis scope) p = .some x ∧ IsNumber x v ∧ v < 500 := by
  have numbers : ∀ x ∈ (ledger.millis scope : List Float),
      ∃ v, IsNumber x v ∧ v ≤ 500 - 2 ^ (-20 : ℤ) := by
    intro x member
    obtain ⟨duration, seen, rfl⟩ := List.mem_map.mp member
    exact isNumber_millis_lt (short duration seen)
  have sorted : (ledger.millis scope : List Float).Pairwise (· ≤ ·) :=
    pairwise_millis fun duration seen => (short duration seen).trans (by norm_num)
  obtain ⟨x, v, reduced, value, bounded⟩ := percentile_le worth most
    (by simpa [millis] using some) (by simpa [millis] using few) sorted numbers
  exact ⟨x, v, reduced, value, bounded.trans_lt (by norm_num)⟩

theorem judge_durations_of_short :
    (ledger.judge ⟨⟨.requestDurations, scope⟩, ⟨.percentile p, .lt, 500⟩, failFast⟩).passed =
      true ↔ ledger.durations scope ≠ [] := by
  have judged : (ledger.judge ⟨⟨.requestDurations, scope⟩, ⟨.percentile p, .lt, 500⟩,
      failFast⟩).passed =
        (percentile (ledger.millis scope : List Float) p).any fun value => value < 500 := rfl
  rw [judged]
  constructor
  · intro passed empty
    rw [millis, empty] at passed
    cases passed
  · intro some
    obtain ⟨x, v, reduced, value, below⟩ := percentile_millis_lt worth most short few some
    have limit : IsNumber 500 500 := by
      exact_mod_cast isNumber_natCast (by norm_num : 500 < 2 ^ 53)
    rw [reduced]
    exact decide_eq_true ((value.lt_iff limit).mpr below)

end Durations

section Defaults

/-- Bounds close to one, in hundredths, tell all from half. -/
theorem hundredths_bounds {n : ℕ} (least : 63 ≤ n) (most : n ≤ 99) :
    5 / 8 ≤ nearest (n / 100) ∧ nearest (n / 100) < 1 := by
  have least : (63 : ℚ) ≤ n := by exact_mod_cast least
  have most : (n : ℚ) ≤ 99 := by exact_mod_cast most
  have low : nearest (5 / 8) = 5 / 8 :=
    nearest_eq_of_digits 5 (-3) (by norm_num) (by norm_num) (by norm_num) (by norm_num)
  have high : nearest (127 / 128) = 127 / 128 :=
    nearest_eq_of_digits 127 (-7) (by norm_num) (by norm_num) (by norm_num) (by norm_num)
  constructor
  · calc (5 / 8 : ℚ) = nearest (5 / 8) := low.symm
      _ ≤ nearest (n / 100) := nearest_mono (by linarith)
  · calc nearest (n / 100) ≤ nearest (127 / 128) := nearest_mono (by linarith)
      _ = 127 / 128 := high
      _ < 1 := by norm_num

theorem passed_default_iff (ledger : Ledger) :
    (ledger.evaluate RunConfig.defaultThresholds).passed = true ↔
      (ledger.judge ⟨⟨.requestFailures, none⟩, ⟨.rate, .lt, 0.01⟩, false⟩).passed = true ∧
      (ledger.judge ⟨⟨.requestDurations, none⟩, ⟨.percentile 95, .lt, 500⟩, false⟩).passed = true ∧
      (ledger.judge ⟨⟨.checks, some pingName⟩, ⟨.rate, .gt, 0.99⟩, false⟩).passed = true ∧
      (ledger.judge ⟨⟨.checks, some putGetName⟩, ⟨.rate, .gt, 0.98⟩, false⟩).passed = true := by
  simp [evaluate, Verdict.ofJudgements, RunConfig.defaultThresholds]

/-- A ledger in which no request has failed and none took half a second. -/
structure Flawless (ledger : Ledger) : Prop where
  failures : ledger.total none (·.failedRequests) = 0
  short : ∀ duration ∈ ledger.durations none, duration.nanos < 500000000
  checks : ∀ scope, ledger.total scope (·.checksPassed) = ledger.total scope (·.checksTotal)

/-- The default thresholds of a flawless ledger pass as soon as they have data. -/
theorem Flawless.passed_iff (h : ledger.Flawless) (requests : ledger.requests none < 2 ^ 64)
    (durations : (ledger.durations none).length < 2 ^ 64)
    (checks : ∀ scope, ledger.total scope (·.checksTotal) < 2 ^ 64) :
    (ledger.evaluate RunConfig.defaultThresholds).passed = true ↔
      ledger.requests none ≠ 0 ∧ ledger.durations none ≠ [] ∧
      ledger.total (some pingName) (·.checksTotal) ≠ 0 ∧
      ledger.total (some putGetName) (·.checksTotal) ≠ 0 := by
  have one : (0 : ℚ) < nearest ((1 : ℕ) / 100) :=
    lt_of_lt_of_le (by positivity) (two_zpow_le_nearest (by norm_num) (by norm_num) :
      (2 : ℚ) ^ (-7 : ℤ) ≤ nearest ((1 : ℕ) / 100))
  have high : IsNumber 95 95 := by exact_mod_cast isNumber_natCast (by norm_num : 95 < 2 ^ 53)
  rw [passed_default_iff,
    judge_failures_of_none (isNumber_hundredths (by norm_num : 1 ≤ 100)) one h.failures requests,
    judge_durations_of_short high (by norm_num) h.short durations,
    judge_checks_of_all (isNumber_hundredths (by norm_num : 99 ≤ 100))
      (hundredths_bounds (by norm_num) (by norm_num)).2 (h.checks _) (checks _),
    judge_checks_of_all (isNumber_hundredths (by norm_num : 98 ≤ 100))
      (hundredths_bounds (by norm_num) (by norm_num)).2 (h.checks _) (checks _)]

/-- If half of the checks of a built-in scenario or more have not passed, the default thresholds do
not pass. -/
theorem not_passed_of_half {name : String} (named : name = pingName ∨ name = putGetName)
    (half : 2 * ledger.total (some name) (·.checksPassed) ≤
      ledger.total (some name) (·.checksTotal))
    (few : ledger.total (some name) (·.checksTotal) < 2 ^ 64) :
    (ledger.evaluate RunConfig.defaultThresholds).passed = false := by
  refine Bool.eq_false_iff.mpr fun passed => ?_
  obtain ⟨-, -, ping, putGet⟩ := (passed_default_iff ledger).mp passed
  rcases named with rfl | rfl
  · rw [judge_checks_of_half (isNumber_hundredths (by norm_num : 99 ≤ 100))
      (hundredths_bounds (by norm_num) (by norm_num)).1 half few] at ping
    cases ping
  · rw [judge_checks_of_half (isNumber_hundredths (by norm_num : 98 ≤ 100))
      (hundredths_bounds (by norm_num) (by norm_num)).1 half few] at putGet
    cases putGet

end Defaults

end Ledger

end Cadence
