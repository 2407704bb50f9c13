import Cadence.Proofs.Quantity.Scientific
import Mathlib

/-!
# Shares and durations in floating point

What a run reduces its counts and durations to: a share of a total, and milliseconds. Both are
rounded quotients, and rounding takes neither out of its bounds nor out of its order.
-/

namespace Cadence.Nearest

variable {part total : ℕ}

theorem one_le_nearest (pos : 0 < total) : 1 ≤ nearest total :=
  calc (1 : ℚ) = nearest (1 : ℕ) := by rw [nearest_natCast (by norm_num), Nat.cast_one]
    _ ≤ nearest total := nearest_mono (by exact_mod_cast pos)

/-- A number of things divided by another is rounded three times. -/
theorem isNumber_share (pos : 0 < total) (large : part < 2 ^ 128) (large' : total < 2 ^ 128) :
    IsNumber (Float.ofNat part / Float.ofNat total) (nearest (nearest part / nearest total)) := by
  have least := one_le_nearest pos
  have below : nearest part / nearest total ≤ 2 ^ 128 :=
    calc nearest part / nearest total ≤ nearest part := div_le_self (nearest_nonneg _) least
      _ ≤ 2 ^ (128 : ℤ) := nearest_le_two_zpow (by norm_num) (by exact_mod_cast large.le)
      _ = 2 ^ 128 := zpow_natCast 2 128
  exact (isNumber_ofNat (nearest_natCast_lt large)).div
    (isNumber_ofNat (nearest_natCast_lt large')) (one_pos.trans_le least) (nearest_lt_of_le below)

/-- Nothing of a total is a share of zero. -/
theorem isNumber_share_zero (pos : 0 < total) (large : total < 2 ^ 128) :
    IsNumber (Float.ofNat 0 / Float.ofNat total) 0 := by
  have := isNumber_share pos (by positivity : 0 < 2 ^ 128) large
  rwa [Nat.cast_zero, nearest_zero, zero_div, nearest_zero] at this

/-- All of a total is a share of one. -/
theorem isNumber_share_self (pos : 0 < total) (large : total < 2 ^ 128) :
    IsNumber (Float.ofNat total / Float.ofNat total) 1 := by
  have := isNumber_share pos large large
  have one : nearest 1 = 1 := by exact_mod_cast nearest_natCast (by norm_num : 1 < 2 ^ 53)
  rwa [div_self (one_pos.trans_le (one_le_nearest pos)).ne', one] at this

/-- Half of a total or less is a share of no more than five eighths, however it is rounded. -/
theorem isNumber_share_half (pos : 0 < total) (half : 2 * part ≤ total) (large : total < 2 ^ 128) :
    ∃ v, IsNumber (Float.ofNat part / Float.ofNat total) v ∧ v ≤ 5 / 8 := by
  refine ⟨_, isNumber_share pos (by omega) large, ?_⟩
  have half : 2 * (part : ℚ) ≤ total := by exact_mod_cast half
  have least := one_le_nearest pos
  have below : nearest part ≤ 5 / 8 * nearest total := by
    rcases Nat.eq_zero_or_pos part with rfl | some
    · rw [Nat.cast_zero, nearest_zero]
      linarith
    · have counted := (nearest_bounds_of_one_le (by exact_mod_cast some : (1 : ℚ) ≤ part)).2
      have counted' := (nearest_bounds_of_one_le (by exact_mod_cast pos : (1 : ℚ) ≤ total)).1
      linarith
  calc nearest (nearest part / nearest total) ≤ nearest (5 / 8) :=
        nearest_mono ((div_le_iff₀ (one_pos.trans_le least)).mpr below)
    _ = 5 / 8 :=
      nearest_eq_of_digits 5 (-3) (by norm_num) (by norm_num) (by norm_num) (by norm_num)

/-- A share of a total lies between zero and one, however its count and its total are rounded. -/
theorem ratio_bounds (within : part ≤ total) (large : total < 2 ^ 64) {share : Float}
    (h : Quantity.ratio part total = some share) : 0 ≤ share ∧ share ≤ 1 := by
  unfold Quantity.ratio at h
  split_ifs at h with none
  cases h
  have bound : 2 ^ 64 ≤ 2 ^ 128 := by norm_num
  have positive := Nat.pos_of_ne_zero none
  have share : IsNumber (Float.ofNat part / Float.ofNat total) _ :=
    isNumber_share positive (within.trans_lt (large.trans_le bound)) (large.trans_le bound)
  have below : nearest (nearest part / nearest total) ≤ 1 := by
    refine nearest_le_one ?_
    rw [div_le_one (one_pos.trans_le (one_le_nearest positive))]
    exact nearest_mono (by exact_mod_cast within)
  exact ⟨(isNumber_zero.le_iff share).mpr (nearest_nonneg _), (share.le_iff isNumber_one).mpr below⟩

/-- What a duration is worth in milliseconds. -/
theorem isNumber_millis {duration : Duration} (large : duration.nanos < 2 ^ 128) :
    IsNumber (Quantity.millis duration)
      (nearest (nearest duration.nanos / nearest (1000000 : ℕ))) :=
  isNumber_share (by norm_num) large (by norm_num)

/-- A longer duration is no smaller number of milliseconds. -/
theorem millis_le {shorter longer : Duration} (h : shorter.nanos ≤ longer.nanos)
    (large : longer.nanos < 2 ^ 128) :
    (Quantity.millis shorter : Float) ≤ Quantity.millis longer := by
  refine ((isNumber_millis (h.trans_lt large)).le_iff (isNumber_millis large)).mpr ?_
  have := nearest_nonneg (1000000 : ℕ)
  refine nearest_mono ?_
  gcongr
  exact nearest_mono (by exact_mod_cast h)

/-- Hundredths are written with two places. -/
theorem isNumber_hundredths {n : ℕ} (few : n ≤ 100) :
    IsNumber (OfScientific.ofScientific n true 2) (nearest (n / 100)) := by
  have worth : (n / 100 : ℚ) = n * 10 ^ (-2 : ℤ) := by
    rw [div_eq_mul_inv]
    norm_num
  have rounded : Rounds (OfScientific.ofScientific n true 2) (n * 10 ^ (-2 : ℤ)) :=
    rounds_ofScientific rfl (by omega) (by norm_num)
  have small : (n : ℚ) ≤ 100 := by exact_mod_cast few
  rw [← worth] at rounded
  refine rounded.number (nearest_lt_of_le ?_)
  linarith

end Cadence.Nearest
