import Cadence.Decimal.Reader
import Cadence.Proofs.Quantity.Scientific
import Mathlib

/-!
# What digits are read as

Digits and an exponent are read as the double that their number is rounded to. The exponents at
which no power is computed are those at which it makes no difference.
-/

namespace Cadence.Decimal

open Nearest

section Double

variable {coefficient : ℕ} {exponent : ℤ}

/-- Eight to a power lies below ten to the same power. -/
theorem two_zpow_le_ten_zpow (k : ℕ) : (2 : ℚ) ^ (3 * k : ℤ) ≤ 10 ^ (k : ℤ) := by
  rw [zpow_mul, zpow_natCast, zpow_natCast]
  gcongr
  norm_num

/-- A coefficient that is shifted out altogether leaves nothing. -/
theorem nearest_of_few_digits {k : ℕ} (few : coefficient.log2 + 1200 < 3 * k) :
    nearest (coefficient * 10 ^ (-k : ℤ)) = 0 := by
  refine nearest_of_tiny ?_
  calc (coefficient * 10 ^ (-k : ℤ) : ℚ) ≤ coefficient * 2 ^ (-(3 * k) : ℤ) := by
        rw [zpow_neg, zpow_neg]
        gcongr
        exact two_zpow_le_ten_zpow k
    _ < 2 ^ (coefficient.log2 + 1 + -(3 * k) : ℤ) := lt_two_zpow_log2 coefficient _
    _ ≤ 2 ^ (-1075 : ℤ) := zpow_le_zpow_right₀ one_le_two (by omega)

/-- A number that is not too large is not cut off. -/
theorem le_of_nearest_lt {k : ℕ} (pos : 0 < coefficient)
    (large : nearest (coefficient * 10 ^ (k : ℤ)) < 2 ^ 1024) : k ≤ 400 := by
  by_contra! beyond
  refine absurd large (not_lt.mpr ?_)
  calc (2 : ℚ) ^ 1024 = 2 ^ (1024 : ℤ) := (zpow_natCast 2 1024).symm
    _ ≤ nearest (coefficient * 10 ^ (k : ℤ)) := two_zpow_le_nearest (by norm_num) ?_
  calc (2 : ℚ) ^ (1024 : ℤ) ≤ 2 ^ (3 * k : ℤ) := zpow_le_zpow_right₀ one_le_two (by omega)
    _ ≤ 10 ^ (k : ℤ) := two_zpow_le_ten_zpow k
    _ ≤ coefficient * 10 ^ (k : ℤ) := by
      refine le_mul_of_one_le_left (by positivity) ?_
      exact_mod_cast pos

/-- The double of a coefficient and an exponent is what their number is rounded to. -/
theorem rounds_toDouble (coefficient : ℕ) (exponent : ℤ) :
    Rounds (toDouble coefficient exponent) (coefficient * 10 ^ exponent) := by
  have zero : Rounds 0 0 := by
    refine ⟨fun _ => ?_, fun large => ?_⟩
    · rw [nearest_zero]
      exact isNumber_zero
    · rw [nearest_zero] at large
      exact absurd large (by norm_num)
  simp only [toDouble]
  split_ifs with none below few cut
  · rw [none, Nat.cast_zero, zero_mul]
    exact zero
  · obtain ⟨k, rfl⟩ : ∃ k : ℕ, exponent = -k := ⟨exponent.natAbs, by omega⟩
    have nothing : nearest (coefficient * 10 ^ (-k : ℤ)) = nearest 0 := by
      rw [nearest_of_few_digits (by simpa using few), nearest_zero]
    exact ⟨nothing ▸ zero.number, nothing ▸ zero.infinite⟩
  · refine rounds_ofScientific ?_ ?_ ?_
    · rw [if_pos rfl]
      omega
    · omega
    · omega
  · obtain ⟨k, rfl⟩ := Int.eq_ofNat_of_zero_le (not_lt.mp below)
    refine ⟨fun fits => ?_, fun _ => rfl⟩
    have := le_of_nearest_lt (Nat.pos_of_ne_zero none) fits
    omega
  · refine rounds_ofScientific ?_ ?_ ?_
    · rw [if_neg Bool.false_ne_true]
      omega
    · omega
    · omega

end Double

/-- Digits are worth what they stand for in base ten. -/
theorem digitsValue_eq (start : ℕ) (digits : List Char) :
    digitsValue start digits = Nat.ofDigitChars 10 digits start := rfl

end Cadence.Decimal
