import Cadence.Decimal.Shortest
import Cadence.Proofs.Quantity.Float
import Cadence.Quantity.Exact
import Mathlib

/-!
# Scientific notation in floating point

A coefficient times a power of ten becomes the nearest number, whether its power is looked up or
computed. Counts are the case in which the power is one.
-/

namespace Cadence.Nearest

open Float.Model hiding pack unpack
open Float.Model.UnpackedFloat

/-- A power is what it multiplies by over what it divides by. -/
theorem zpow_eq_powers (base : ℕ) (e : ℤ) :
    (base : ℚ) ^ e = Decimal.powerAbove base e / Decimal.powerBelow base e := by
  simp only [Decimal.powerAbove, Decimal.powerBelow, Nat.pow_eq]
  rcases le_total 0 e with above | below
  · obtain ⟨k, rfl⟩ := Int.eq_ofNat_of_zero_le above
    simp
  · obtain ⟨k, rfl⟩ : ∃ k : ℕ, e = -k := ⟨(-e).toNat, by omega⟩
    simp

/-- The exact value of a number is what it is worth. -/
theorem IsNumber.ratOfFloat_eq {x : Float} {v : ℚ} (h : IsNumber x v) :
    Quantity.ratOfFloat x = v := by
  unfold IsNumber at h
  unfold Quantity.ratOfFloat
  generalize x.toModel.unpack = u at h ⊢
  match u, h with
  | .zero .positive, h => exact (show v = 0 from h).symm
  | .finite .positive m e pos, ⟨_, value⟩ =>
    have powers := zpow_eq_powers 2 e
    rw [value]
    simp only [Rat.mkRat_eq_div]
    push_cast at powers ⊢
    rw [powers]
    ring

/-- Within the exponents for which a power of ten is computed, the result is the nearest number. -/
theorem denotes_ofScientific (n : ℕ) {k : ℤ} (low : -(2 ^ 11 + n.log2 : ℤ) ≤ k)
    (high : k ≤ 2 ^ 11) :
    Denotes (UnpackedFloat.ofScientific .binary64 n k) (nearest (n * 10 ^ k)) := by
  rcases Nat.eq_zero_or_pos n with rfl | pos
  · rw [Nat.cast_zero, zero_mul, nearest_zero]
    exact rfl
  rw [UnpackedFloat.ofScientific, dif_neg pos.ne', if_neg (not_lt.mpr high),
    if_neg (not_lt.mpr low)]
  split_ifs with whole
  · obtain ⟨k, rfl⟩ := Int.eq_ofNat_of_zero_le whole
    obtain ⟨m, digits⟩ : ∃ m, m = n * 2 ^ 53 * 10 ^ k := ⟨_, rfl⟩
    have shifted : n <<< 53 * 10 ^ k = m := by rw [digits, Nat.shiftLeft_eq]
    have moved : (n * 10 ^ (k : ℤ) : ℚ) = m * 2 ^ (-53 : ℤ) := by
      rw [digits, zpow_neg, zpow_natCast]
      push_cast
      field_simp
    have many : 2 ^ 53 ≤ m :=
      calc 2 ^ 53 ≤ n * 2 ^ 53 := Nat.le_mul_of_pos_left _ pos
        _ ≤ m := digits ▸ Nat.le_mul_of_pos_right _ (by positivity)
    have rounded := denotes_roundExact (e := -53) (by omega) (Or.inl (by omega : 2 ^ 52 ≤ m))
    rw [moved]
    rw [← shifted] at rounded ⊢
    exact rounded
  · obtain ⟨k, rfl⟩ : ∃ j : ℕ, k = -j := ⟨(-k).toNat, by omega⟩
    have magnitude : (- -(k : ℤ)).toNat = k := by omega
    have quotient : (n * 10 ^ (-k : ℤ) : ℚ) = n * 2 ^ (0 : ℤ) / ((10 ^ k : ℕ) * 2 ^ (0 : ℤ)) := by
      simp [div_eq_mul_inv]
    simp only [magnitude, quotient]
    exact denotes_divCore pos (by positivity)

/-- The digits and the exponent of a power of ten. -/
def isPower (k : ℕ) : UnpackedFloat → Bool
  | .finite .positive m e _ =>
    2 ^ 52 ≤ m && m < 2 ^ 53 && -1074 ≤ e &&
      m * Decimal.powerAbove 2 e == 10 ^ k * Decimal.powerBelow 2 e
  | _ => false

theorem denotes_of_isPower {k : ℕ} {x : UnpackedFloat} (h : isPower k x) : Denotes x (10 ^ k) := by
  match x, h with
  | .finite .positive m e pos, h =>
    simp only [isPower, Bool.and_eq_true, decide_eq_true_eq, beq_iff_eq] at h
    obtain ⟨⟨⟨full, digits⟩, small⟩, product⟩ := h
    refine ⟨⟨digits, small, Or.inl full⟩, ?_⟩
    have below : (Decimal.powerBelow 2 e : ℚ) ≠ 0 := by simp [Decimal.powerBelow]
    have power := zpow_eq_powers 2 e
    rw [Nat.cast_ofNat] at power
    rw [power, mul_div_assoc', eq_div_iff below]
    exact_mod_cast product.symm

theorem isPower_powersOfTen : ∀ k : Fin Float.exactlyRepresentablePowersOfTen.size,
    isPower k Float.exactlyRepresentablePowersOfTen[k].toModel.unpack := by
  decide +kernel

/-- The powers of ten that are looked up are exact. -/
theorem isNumber_powerOfTen {k : ℕ} (h : k < Float.exactlyRepresentablePowersOfTen.size) :
    IsNumber Float.exactlyRepresentablePowersOfTen[k] (10 ^ k) := by
  exact denotes_of_isPower (isPower_powersOfTen ⟨k, h⟩)

/-- A coefficient that fits is kept. -/
theorem isNumber_toFloat {n : ℕ} (digits : n < 2 ^ 53) : IsNumber n.toUInt64.toFloat n := by
  have exact : nearest n = n := nearest_natCast digits
  have kept : n.toUInt64.toNat = n := by
    simp
    omega
  rw [← exact]
  refine isNumber_pack ?_ ?_
  · rw [UnpackedFloat.ofUInt64, kept]
    exact denotes_ofNat n
  · rw [exact]
    calc (n : ℚ) < 2 ^ 53 := by exact_mod_cast digits
      _ < 2 ^ 1024 := pow_lt_pow_right₀ one_lt_two (by norm_num)

/-- A number in scientific notation is rounded once. -/
theorem rounds_ofScientific {n k : ℕ} {negative : Bool} {e : ℤ}
    (exponent : e = if negative then -(k : ℤ) else k) (low : -(2 ^ 11 + n.log2 : ℤ) ≤ e)
    (high : e ≤ 2 ^ 11) : Rounds (Float.ofScientific n negative k) (n * 10 ^ e) := by
  unfold Float.ofScientific
  split
  next small =>
    have coefficient := isNumber_toFloat small.1
    have power := isNumber_powerOfTen (Nat.lt_succ_of_le small.2)
    cases negative with
    | false =>
      obtain rfl : e = k := exponent
      rw [zpow_natCast]
      exact coefficient.rounds_mul power
    | true =>
      obtain rfl : e = -k := exponent
      rw [zpow_neg, zpow_natCast, ← div_eq_mul_inv]
      exact coefficient.rounds_div power (by positivity)
  next =>
    have same : (if negative then Int.negOfNat k else Int.ofNat k) = e := by
      rw [exponent]
      cases negative with
      | false => rfl
      | true => exact Int.negOfNat_eq
    simp only [same]
    exact rounds_pack (denotes_ofScientific n low high)

/-- A number of things is the nearest number to it. -/
theorem isNumber_ofNat {n : ℕ} (large : nearest n < 2 ^ 1024) :
    IsNumber (Float.ofNat n) (nearest n) := by
  have whole : (n * 10 ^ (0 : ℤ) : ℚ) = n := by rw [zpow_zero, mul_one]
  rw [← whole] at large ⊢
  show IsNumber (Float.ofScientific n false 0) (nearest (n * 10 ^ (0 : ℤ)))
  exact (rounds_ofScientific rfl (by omega) (by norm_num)).number large

/-- Fractions of up to 128 binary digits are not too large when they are rounded. -/
theorem nearest_lt_of_le {v : ℚ} (small : v ≤ 2 ^ 128) : nearest v < 2 ^ 1024 :=
  calc nearest v ≤ 2 ^ (128 : ℤ) := nearest_le_two_zpow (by norm_num) (by exact_mod_cast small)
    _ = 2 ^ 128 := zpow_natCast 2 128
    _ < 2 ^ 1024 := pow_lt_pow_right₀ one_lt_two (by norm_num)

theorem nearest_natCast_lt {n : ℕ} (large : n < 2 ^ 128) : nearest n < 2 ^ 1024 :=
  nearest_lt_of_le (by exact_mod_cast large.le)

/-- Up to 53 binary digits, a number of things is kept as it is. -/
theorem isNumber_natCast {n : ℕ} (digits : n < 2 ^ 53) : IsNumber (Float.ofNat n) n := by
  have := isNumber_ofNat (nearest_natCast_lt (digits.trans (by norm_num)))
  rwa [nearest_natCast digits] at this

theorem isNumber_zero : IsNumber 0 0 := by
  have := isNumber_natCast (by norm_num : 0 < 2 ^ 53)
  rwa [Nat.cast_zero] at this

theorem isNumber_one : IsNumber 1 1 := by
  have := isNumber_natCast (by norm_num : 1 < 2 ^ 53)
  rwa [Nat.cast_one] at this

end Cadence.Nearest
