import Cadence.Decimal.Shortest
import Cadence.Proofs.Quantity.Scientific
import Mathlib

/-!
# Shortest decimals read back

The digits found for a double stand for a number that rounds to it. Whatever grid they were found
on, they lie in its rounding interval, and on the grid of seventeen digits one of the two neighbours
of a double does.
-/

namespace Cadence.Decimal

open Nearest

/-- What a decimal stands for. -/
def toRat (d : Decimal) : ℚ := d.coefficient * 10 ^ d.exponent

theorem powerBelow_pos {base : ℕ} (pos : 0 < base) (e : ℤ) : 0 < powerBelow base e :=
  Nat.pow_pos pos

namespace Interval

section Contains

variable {i : Interval} {x : ℚ}

/-- A fraction that lies in an interval. -/
structure Holds (i : Interval) (x : ℚ) : Prop where
  above : i.low ≤ x * i.denominator
  below : x * i.denominator ≤ i.high
  strict : i.closed = false → i.low < x * i.denominator ∧ x * i.denominator < i.high

theorem Holds.of_lt (above : i.low < x * i.denominator) (below : x * i.denominator < i.high) :
    i.Holds x :=
  ⟨above.le, below.le, fun _ => ⟨above, below⟩⟩

/-- Comparing natural numbers decides what lies in an interval. -/
theorem contains_iff (i : Interval) (c : ℕ) (k : ℤ) :
    i.contains c k = true ↔ i.Holds (c * 10 ^ k) := by
  have pos : (0 : ℚ) < powerBelow 10 k := by exact_mod_cast powerBelow_pos (by norm_num) k
  have scaled : (c * 10 ^ k * i.denominator : ℚ) =
      (c * powerAbove 10 k * i.denominator : ℕ) / powerBelow 10 k := by
    have power := zpow_eq_powers 10 k
    push_cast at power ⊢
    rw [power]
    ring
  have above : (i.low : ℚ) ≤ c * 10 ^ k * i.denominator ↔
      i.low * powerBelow 10 k ≤ c * powerAbove 10 k * i.denominator := by
    rw [scaled, le_div_iff₀ pos]
    exact_mod_cast Iff.rfl
  have below : (c * 10 ^ k * i.denominator : ℚ) ≤ i.high ↔
      c * powerAbove 10 k * i.denominator ≤ i.high * powerBelow 10 k := by
    rw [scaled, div_le_iff₀ pos]
    exact_mod_cast Iff.rfl
  have strict : (i.low : ℚ) < c * 10 ^ k * i.denominator ∧
      (c * 10 ^ k * i.denominator : ℚ) < i.high ↔
      i.low * powerBelow 10 k < c * powerAbove 10 k * i.denominator ∧
        c * powerAbove 10 k * i.denominator < i.high * powerBelow 10 k := by
    rw [scaled, lt_div_iff₀ pos, div_lt_iff₀ pos]
    exact_mod_cast Iff.rfl
  simp only [contains]
  cases closed : i.closed with
  | false =>
    simp only [Bool.false_eq_true, if_false, Bool.and_eq_true, decide_eq_true_eq]
    rw [← strict]
    exact ⟨fun h => .of_lt h.1 h.2, fun h => h.strict closed⟩
  | true =>
    simp only [if_true, Bool.and_eq_true, decide_eq_true_eq]
    rw [← above, ← below]
    exact ⟨fun h => ⟨h.1, h.2, by simp [closed]⟩, fun h => ⟨h.above, h.below⟩⟩

end Contains

section Double

variable {m : ℕ} {e : ℤ} {x : ℚ}

/-- How much of its last digit a double reaches down. -/
def reach (m : ℕ) (e : ℤ) : ℚ := if m = 2 ^ 52 ∧ -1074 < e then 1 / 4 else 1 / 2

theorem reach_le (m : ℕ) (e : ℤ) : reach m e ≤ 1 / 2 := by
  unfold reach
  split_ifs <;> norm_num

theorem denominator_pos (m : ℕ) (e : ℤ) : 0 < (ofDouble m e).denominator :=
  powerBelow_pos two_pos _

theorem scale_div_denominator (m : ℕ) (e : ℤ) :
    (powerAbove 2 (e - 2) : ℚ) / (ofDouble m e).denominator = 2 ^ e / 4 := by
  have power := zpow_eq_powers 2 (e - 2)
  rw [Nat.cast_ofNat, zpow_sub₀ two_ne_zero] at power
  rw [show (ofDouble m e).denominator = powerBelow 2 (e - 2) from rfl, ← power]
  norm_num

theorem value_div_denominator (m : ℕ) (e : ℤ) :
    ((ofDouble m e).value : ℚ) / (ofDouble m e).denominator = m * 2 ^ e := by
  rw [show (ofDouble m e).value = 4 * m * powerAbove 2 (e - 2) from rfl]
  push_cast
  rw [mul_div_assoc, scale_div_denominator]
  ring

theorem low_div_denominator (pos : 0 < m) :
    ((ofDouble m e).low : ℚ) / (ofDouble m e).denominator = (m - reach m e) * 2 ^ e := by
  have quarters : ((4 * m - if m == leastMantissa && leastExponent < e then 1 else 2 : ℕ) : ℚ) =
      4 * (m - reach m e) := by
    have narrow : (m == leastMantissa && leastExponent < e) = true ↔ m = 2 ^ 52 ∧ -1074 < e := by
      rw [Bool.and_eq_true, beq_iff_eq, decide_eq_true_iff]
      exact Iff.rfl
    unfold reach
    simp only [narrow]
    split_ifs
    · rw [Nat.cast_sub (by omega)]
      push_cast
      ring
    · rw [Nat.cast_sub (by omega)]
      push_cast
      ring
  rw [show (ofDouble m e).low = (4 * m - if m == leastMantissa && leastExponent < e then 1 else 2) *
    powerAbove 2 (e - 2) from rfl, Nat.cast_mul, quarters, mul_div_assoc, scale_div_denominator]
  ring

theorem high_div_denominator (m : ℕ) (e : ℤ) :
    ((ofDouble m e).high : ℚ) / (ofDouble m e).denominator = (m + 1 / 2) * 2 ^ e := by
  rw [show (ofDouble m e).high = (4 * m + 2) * powerAbove 2 (e - 2) from rfl]
  push_cast
  rw [mul_div_assoc, scale_div_denominator]
  ring

/-- The interval of a double, in fractions. -/
theorem holds_ofDouble_iff (pos : 0 < m) :
    (ofDouble m e).Holds x ↔ (m - reach m e) * 2 ^ e ≤ x ∧ x ≤ (m + 1 / 2) * 2 ^ e ∧
      (m % 2 = 1 → (m - reach m e) * 2 ^ e < x ∧ x < (m + 1 / 2) * 2 ^ e) := by
  have positive : (0 : ℚ) < (ofDouble m e).denominator := by exact_mod_cast denominator_pos m e
  have closed : (ofDouble m e).closed = false ↔ m % 2 = 1 := by
    rw [show (ofDouble m e).closed = (m % 2 == 0) from rfl, beq_eq_false_iff_ne]
    omega
  rw [← low_div_denominator pos, ← high_div_denominator, ← closed, div_le_iff₀ positive,
    le_div_iff₀ positive, div_lt_iff₀ positive, lt_div_iff₀ positive]
  exact ⟨fun h => ⟨h.above, h.below, h.strict⟩, fun h => ⟨h.1, h.2.1, h.2.2⟩⟩

/-- Below a power of two the digits lie closer, and the power is one more than the most of them. -/
theorem nearest_below_power (small : -1074 < e) (above : (2 ^ 52 - 1 / 4) * 2 ^ e ≤ x)
    (below : x < 2 ^ 52 * 2 ^ e) : nearest x = 2 ^ 52 * 2 ^ e := by
  have power : (0 : ℚ) < 2 ^ (e - 1) := by positivity
  have double : (2 : ℚ) ^ e = 2 * 2 ^ (e - 1) := by
    rw [zpow_sub₀ two_ne_zero, zpow_one]
    ring
  rw [double] at above below ⊢
  have place : lastPlace x = e - 1 := by
    refine lastPlace_eq ?_ (by omega) ?_ (Or.inl ?_) <;> linarith
  have digits : toEven (x / 2 ^ (e - 1)) = 2 ^ 53 := by
    refine toEven_eq_of_near (div_nonneg (by linarith) power.le) ?_ ?_ (by norm_num)
    · rw [le_div_iff₀ power]
      push_cast
      linarith
    · rw [div_le_iff₀ power]
      push_cast
      linarith
  rw [nearest, place, digits]
  push_cast
  ring

/-- What lies in the interval of a double rounds to it. -/
theorem nearest_of_holds (canonical : Canonical m e) (pos : 0 < m)
    (h : (ofDouble m e).Holds x) : nearest x = m * 2 ^ e := by
  obtain ⟨above, below, odd⟩ := (holds_ofDouble_iff pos).mp h
  have power : (0 : ℚ) < 2 ^ e := by positivity
  have half := reach_le m e
  by_cases full : 2 ^ 52 * 2 ^ e ≤ x ∨ e = -1074
  · have one : (1 : ℚ) ≤ m := by exact_mod_cast pos
    have most : (m : ℚ) + 1 ≤ 2 ^ 53 := by exact_mod_cast canonical.digits
    have positive : 0 < x := lt_of_lt_of_le (mul_pos (by linarith) power) above
    have place : lastPlace x = e := by
      refine lastPlace_eq positive canonical.small (lt_of_le_of_lt below ?_) full
      gcongr
      linarith
    have digits : toEven (x / 2 ^ e) = m := by
      refine toEven_eq_of_near (by positivity) ?_ ?_ fun last => ⟨?_, ?_⟩
      · rw [le_div_iff₀ power]
        exact le_trans (by gcongr) above
      · rwa [div_le_iff₀ power]
      · rw [lt_div_iff₀ power]
        exact lt_of_le_of_lt (by gcongr) (odd last).1
      · rw [div_lt_iff₀ power]
        exact (odd last).2
    rw [nearest, place, digits]
  · obtain ⟨beyond, higher⟩ := not_or.mp full
    have small : -1074 < e := lt_of_le_of_ne canonical.small (Ne.symm higher)
    have digits : 2 ^ 52 ≤ m := canonical.full.resolve_right higher
    have few : (m : ℚ) - 1 / 2 < 2 ^ 52 := by
      refine lt_of_mul_lt_mul_right ?_ power.le
      calc ((m : ℚ) - 1 / 2) * 2 ^ e ≤ (m - reach m e) * 2 ^ e := by gcongr
        _ ≤ x := above
        _ < 2 ^ 52 * 2 ^ e := not_le.mp beyond
    obtain rfl : m = 2 ^ 52 := by
      have : (m : ℚ) < (2 ^ 52 + 1 : ℕ) := by
        push_cast
        linarith
      have : m < 2 ^ 52 + 1 := by exact_mod_cast this
      omega
    rw [reach, if_pos ⟨rfl, small⟩] at above
    push_cast at above ⊢
    exact nearest_below_power small above (not_le.mp beyond)

end Double

section Grid

variable {m : ℕ} {e k : ℤ} {tie : Tie} {d : Decimal}

theorem roundDiv_eq_or (numerator denominator : ℕ) (tie : Tie) :
    roundDiv numerator denominator tie = numerator / denominator ∨
      roundDiv numerator denominator tie = numerator / denominator + 1 := by
  simp only [roundDiv]
  split_ifs
  · exact Or.inr rfl
  · exact Or.inl rfl

/-- What is found on a grid lies in the interval. -/
theorem contains_of_onGrid? {i : Interval} (h : i.onGrid? tie k = some d) :
    i.contains d.coefficient d.exponent = true := by
  simp only [onGrid?] at h
  split at h
  next below above =>
    cases h
    exact below
  next below above =>
    cases h
    exact above
  next below above =>
    cases h
    rcases roundDiv_eq_or (i.value * powerBelow 10 k) (i.denominator * powerAbove 10 k) tie with
      same | same
    · rwa [same]
    · rwa [same]
  next => cases h

/-- Nothing is found on a grid only if neither neighbour lies in the interval. -/
theorem onGrid?_isSome {i : Interval} {n : ℕ}
    (value : n = i.value * powerBelow 10 k / (i.denominator * powerAbove 10 k))
    (h : i.contains n k = true ∨ i.contains (n + 1) k = true) : (i.onGrid? tie k).isSome := by
  subst value
  simp only [onGrid?]
  split
  next => rfl
  next => rfl
  next => rfl
  next below above => simp [below, above] at h

/-- The neighbours of a double on a grid. -/
theorem neighbours (m : ℕ) (e k : ℤ) {n : ℕ}
    (value : n = (ofDouble m e).value * powerBelow 10 k /
      ((ofDouble m e).denominator * powerAbove 10 k)) :
    (n * 10 ^ k : ℚ) ≤ m * 2 ^ e ∧ (m * 2 ^ e : ℚ) < (n + 1 : ℕ) * 10 ^ k := by
  have positive : (0 : ℚ) < powerBelow 10 k := by exact_mod_cast powerBelow_pos (by norm_num) k
  have above : (0 : ℚ) < powerAbove 10 k := by
    exact_mod_cast (Nat.pow_pos (by norm_num) : 0 < powerAbove 10 k)
  have denominator : (0 : ℚ) < (ofDouble m e).denominator := by exact_mod_cast denominator_pos m e
  have quotient : ((ofDouble m e).value * powerBelow 10 k : ℕ) /
      ((ofDouble m e).denominator * powerAbove 10 k : ℕ) = (m * 2 ^ e / 10 ^ k : ℚ) := by
    have power := zpow_eq_powers 10 k
    push_cast at power ⊢
    rw [← value_div_denominator, power]
    field_simp
  have floor : n = ⌊(m * 2 ^ e / 10 ^ k : ℚ)⌋₊ := by
    rw [value, ← quotient, Nat.floor_div_eq_div]
  have power : (0 : ℚ) < 10 ^ k := by positivity
  constructor
  · rw [← le_div_iff₀ power, floor]
    exact Nat.floor_le (by positivity)
  · rw [← div_lt_iff₀ power, floor]
    push_cast
    exact Nat.lt_floor_add_one _

/-- A grid whose step is less than twice the reach of a double has a point in its interval. -/
theorem onGrid?_isSome_of_fine (pos : 0 < m) (fine : (10 ^ k : ℚ) < 2 * reach m e * 2 ^ e) :
    ((ofDouble m e).onGrid? tie k).isSome := by
  obtain ⟨n, value⟩ : ∃ n, n = (ofDouble m e).value * powerBelow 10 k /
      ((ofDouble m e).denominator * powerAbove 10 k) := ⟨_, rfl⟩
  obtain ⟨below, above⟩ := neighbours m e k value
  refine onGrid?_isSome value ?_
  have power : (0 : ℚ) < 10 ^ k := by positivity
  have half : reach m e * 2 ^ e ≤ 1 / 2 * 2 ^ e := by
    gcongr
    exact reach_le m e
  rw [contains_iff, contains_iff, holds_ofDouble_iff pos, holds_ofDouble_iff pos]
  push_cast at above ⊢
  rcases le_or_gt (m * 2 ^ e - n * 10 ^ k : ℚ) (10 ^ k / 2) with near | far
  · left
    refine ⟨?_, ?_, fun _ => ⟨?_, ?_⟩⟩ <;> linarith
  · right
    refine ⟨?_, ?_, fun _ => ⟨?_, ?_⟩⟩ <;> linarith

/-- The digits of a positive number are no more than it needs. -/
theorem ten_pow_digitCount_le {n : ℕ} (pos : 0 < n) : 10 ^ (digitCount n - 1) ≤ n := by
  rcases Nat.eq_zero_or_pos (digitCount n - 1) with one | more
  · rwa [one, pow_zero]
  · by_contra! less
    have := (Nat.length_toDigits_le_iff (by norm_num) more).mpr less
    unfold digitCount at more this
    omega

/-- The digits before the point, and as many behind it, put the leading digit in its place. -/
theorem ten_zpow_digitCount_le {n d p : ℕ} (pos : 0 < d)
    (h : (1 : ℚ) ≤ n / d * 10 ^ p) :
    (10 ^ ((digitCount (n * Nat.pow 10 p / d) : ℤ) - p - 1) : ℚ) ≤ n / d := by
  rw [Nat.pow_eq]
  have positive : (0 : ℚ) < d := by exact_mod_cast pos
  have some : 0 < n * 10 ^ p / d := by
    rw [div_mul_eq_mul_div, one_le_div positive] at h
    exact Nat.div_pos (by exact_mod_cast h) pos
  have count : 1 ≤ digitCount (n * 10 ^ p / d) := Nat.length_toDigits_pos
  have exponent : (digitCount (n * 10 ^ p / d) : ℤ) - p - 1 =
      (digitCount (n * 10 ^ p / d) - 1 : ℕ) - p := by omega
  rw [exponent, zpow_sub₀ (by norm_num), zpow_natCast, zpow_natCast, div_le_iff₀ (by positivity)]
  calc (10 ^ (digitCount (n * 10 ^ p / d) - 1) : ℚ) ≤ (n * 10 ^ p / d : ℕ) := by
        exact_mod_cast ten_pow_digitCount_le some
    _ ≤ (n * 10 ^ p : ℕ) / d := Nat.cast_div_le
    _ = n / d * 10 ^ p := by
      push_cast
      ring

theorem two_pow_le_ten_pow : 2 ^ 1074 ≤ 10 ^ 324 := by decide +kernel

/-- A double is not less than its leading digit is worth. -/
theorem ten_zpow_leading_le (canonical : Canonical m e) (pos : 0 < m) :
    (10 ^ ((ofDouble m e).leading - 1) : ℚ) ≤ m * 2 ^ e := by
  have least : (1 : ℚ) ≤ m * 2 ^ e * 10 ^ 324 :=
    calc (1 : ℚ) ≤ 2 ^ (-1074 : ℤ) * 10 ^ 324 := by
          rw [zpow_neg, inv_mul_eq_div, one_le_div (by positivity)]
          exact_mod_cast two_pow_le_ten_pow
      _ ≤ m * 2 ^ e * 10 ^ 324 := by
        gcongr
        calc (2 : ℚ) ^ (-1074 : ℤ) ≤ 2 ^ e := zpow_le_zpow_right₀ one_le_two canonical.small
          _ ≤ m * 2 ^ e := le_mul_of_one_le_left (by positivity) (by exact_mod_cast pos)
  rw [← value_div_denominator] at least ⊢
  exact ten_zpow_digitCount_le (denominator_pos m e) least

/-- Seventeen digits always suffice. -/
theorem onGrid?_isSome_of_seventeen (canonical : Canonical m e) (pos : 0 < m) :
    ((ofDouble m e).onGrid? tie ((ofDouble m e).leading - 17)).isSome := by
  refine onGrid?_isSome_of_fine pos ?_
  have power : (0 : ℚ) < 2 ^ e := by positivity
  have digits : (m : ℚ) < 2 ^ 53 := by exact_mod_cast canonical.digits
  calc (10 ^ ((ofDouble m e).leading - 17) : ℚ)
      = 10 ^ ((ofDouble m e).leading - 1) / 10 ^ 16 := by
        rw [div_eq_mul_inv, ← zpow_natCast, ← zpow_neg, ← zpow_add₀ (by norm_num)]
        congr 1
        push_cast
        ring
    _ ≤ m / 10 ^ 16 * 2 ^ e := by
      rw [div_mul_eq_mul_div]
      gcongr
      exact ten_zpow_leading_le canonical pos
    _ < 2 * reach m e * 2 ^ e := by
      gcongr
      unfold reach
      split_ifs with narrow
      · rw [narrow.1]
        norm_num
      · rw [div_lt_iff₀ (by positivity)]
        linarith

end Grid

end Interval

section Shortest

variable {m : ℕ} {e : ℤ}

/-- Dropping zeros at the end keeps the number. -/
theorem toRat_normalize (d : Decimal) : d.normalize.toRat = d.toRat := by
  fun_induction normalize d with
  | case1 d ends ih =>
    have tenfold : (d.coefficient : ℚ) = (d.coefficient / 10 : ℕ) * 10 := by
      exact_mod_cast (Nat.div_mul_cancel (Nat.dvd_of_mod_eq_zero ends.1)).symm
    rw [ih, toRat, toRat, tenfold, zpow_add₀ (by norm_num)]
    ring
  | case2 d => rfl

/-- The digits that are found lie in the interval of the double. -/
theorem exists_shortest (canonical : Canonical m e) (pos : 0 < m) (tie : Tie) :
    ∃ d : Decimal, (Interval.ofDouble m e).contains d.coefficient d.exponent = true ∧
      shortest tie m e = d.normalize := by
  have last : ((Interval.ofDouble m e).onGrid? tie
      ((Interval.ofDouble m e).leading - 17)).isSome :=
    Interval.onGrid?_isSome_of_seventeen canonical pos
  obtain ⟨found, search⟩ : ∃ found, found = (List.range 17).findSome? fun n =>
      (Interval.ofDouble m e).onGrid? tie ((Interval.ofDouble m e).leading - (n + 1 : ℕ)) :=
    ⟨_, rfl⟩
  have some : found.isSome := by
    rw [search, List.findSome?_isSome_iff]
    exact ⟨16, by simp, last⟩
  obtain ⟨d, rfl⟩ := Option.isSome_iff_exists.mp some
  obtain ⟨n, -, grid⟩ := List.exists_of_findSome?_eq_some search.symm
  refine ⟨d, Interval.contains_of_onGrid? grid, ?_⟩
  simp only [shortest]
  rw [← search, Option.getD_some]

/-- The shortest digits of a double round to it. -/
theorem nearest_shortest (canonical : Canonical m e) (pos : 0 < m) (tie : Tie) :
    nearest (shortest tie m e).toRat = m * 2 ^ e := by
  obtain ⟨d, inside, same⟩ := exists_shortest canonical pos tie
  rw [same, toRat_normalize]
  exact Interval.nearest_of_holds canonical pos ((Interval.contains_iff _ _ _).mp inside)

end Shortest

end Cadence.Decimal
