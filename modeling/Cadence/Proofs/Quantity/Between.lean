import Cadence.Proofs.Quantity.Sum
import Cadence.Proofs.Quantity.Whole
import Mathlib

/-!
# Between two numbers in floating point

A number on the way from one number to another, `x + (y - x) * z` for a `z` below one, is rounded
three times. It stays between the two: where the difference is rounded up, what is missing from `z`
to one is enough to make up for it.
-/

namespace Cadence.Nearest

open Float.Model hiding pack unpack
open Float.Model.UnpackedFloat

section Digits

variable {x : Float} {v : ℚ}

theorem IsNumber.lt_two_pow (h : IsNumber x v) : v < 2 ^ 1024 := by
  have kept {sign : Sign} {m : ℕ} {e : ℤ} {pos : 0 < m}
      (same : x.toModel.unpack = .finite sign m e pos) : Canonical m e ∧ e ≤ 971 :=
    canonical_of_unpack same
  unfold IsNumber at h
  generalize x.toModel.unpack = u at h kept
  match u, h with
  | .zero .positive, h =>
    rw [show v = 0 from h]
    positivity
  | .finite .positive m e pos, ⟨_, value⟩ =>
    obtain ⟨canonical, large⟩ := kept rfl
    rw [value]
    exact canonical.lt_two_pow large

/-- A number has up to 53 digits, the last of them in the last place that there is or before it. -/
theorem IsNumber.exists_digits (h : IsNumber x v) :
    ∃ (m : ℕ) (e : ℤ), v = m * 2 ^ e ∧ m < 2 ^ 53 ∧ -1074 ≤ e := by
  unfold IsNumber at h
  generalize x.toModel.unpack = u at h
  match u, h with
  | .zero .positive, h => exact ⟨0, 0, by rw [show v = 0 from h]; simp, by norm_num, by norm_num⟩
  | .finite .positive m e _, ⟨canonical, value⟩ =>
    exact ⟨m, e, value, canonical.digits, canonical.small⟩

/-- A number is a whole number of the last places that there are. -/
theorem IsNumber.exists_places (h : IsNumber x v) : ∃ k : ℕ, v = k * 2 ^ (-1074 : ℤ) := by
  obtain ⟨m, e, value, -, small⟩ := h.exists_digits
  obtain ⟨k, rfl⟩ := Int.le.dest small
  refine ⟨m * 2 ^ k, ?_⟩
  rw [value, zpow_add₀ two_ne_zero, zpow_natCast]
  generalize (2 : ℚ) ^ (-1074 : ℤ) = place
  push_cast
  ring

/-- What a number has behind its whole part is a number as well. -/
theorem IsNumber.nearest_fract (h : IsNumber x v) : nearest (v - ⌊v⌋₊) = v - ⌊v⌋₊ := by
  obtain ⟨m, e, value, digits, small⟩ := h.exists_digits
  rcases le_or_gt 0 e with whole | places
  · obtain ⟨k, rfl⟩ := Int.eq_ofNat_of_zero_le whole
    have natural : v = (m * 2 ^ k : ℕ) := by
      rw [value, zpow_natCast]
      push_cast
      rfl
    rw [natural, Nat.floor_natCast, sub_self, nearest_zero]
  · obtain ⟨k, rfl⟩ : ∃ k : ℕ, e = -k := ⟨(-e).toNat, by omega⟩
    have fraction : v = (m : ℚ) / (2 ^ k : ℕ) := by
      rw [value, zpow_neg, zpow_natCast, div_eq_mul_inv]
      push_cast
      rfl
    have rest : v - ⌊v⌋₊ = (m % 2 ^ k : ℕ) * 2 ^ (-k : ℤ) := by
      have parts : (m : ℚ) = 2 ^ k * (m / 2 ^ k : ℕ) + (m % 2 ^ k : ℕ) := by
        exact_mod_cast (Nat.div_add_mod m (2 ^ k)).symm
      rw [fraction, Nat.floor_div_eq_div, zpow_neg, zpow_natCast, parts]
      push_cast
      field_simp
      ring
    rcases Nat.eq_zero_or_pos (m % 2 ^ k) with none | some
    · rw [rest, none, Nat.cast_zero, zero_mul, nearest_zero]
    · exact nearest_eq_of_digits _ _ rest some ((Nat.mod_le ..).trans_lt digits) small

/-- A number below one is below it by the last of 53 digits at least. -/
theorem IsNumber.le_of_lt_one (h : IsNumber x v) (below : v < 1) : v ≤ 1 - 2 ^ (-53 : ℤ) := by
  rcases lt_or_ge v (1 / 2) with low | high
  · norm_num
    linarith
  have place : lastPlace v = -53 := by
    refine lastPlace_eq (by linarith) (by norm_num) ?_ (Or.inl ?_)
    · norm_num
      exact below
    · norm_num
      exact high
  have digits := h.nearest_eq
  rw [nearest, place] at digits
  generalize toEven (v / 2 ^ (-53 : ℤ)) = k at digits
  have all : (2 : ℚ) ^ 53 * 2 ^ (-53 : ℤ) = 1 := by norm_num
  have unit : (0 : ℚ) < 2 ^ (-53 : ℤ) := by positivity
  generalize (2 : ℚ) ^ (-53 : ℤ) = t at digits all unit ⊢
  rw [← digits, ← all] at below
  have few : k < 2 ^ 53 := by
    exact_mod_cast lt_of_mul_lt_mul_right below unit.le
  have most : (k : ℚ) + 1 ≤ 2 ^ 53 := by exact_mod_cast few
  have scaled := mul_le_mul_of_nonneg_right most unit.le
  linarith

end Digits

/-- Digits and less than half of the last of them are rounded to the digits. -/
theorem nearest_of_place {k : ℕ} {r : ℚ} {e : ℤ} (full : 2 ^ 52 ≤ k) (digits : k < 2 ^ 53)
    (small : -1074 ≤ e) (nonneg : 0 ≤ r) (below : r < 1 / 2) :
    nearest ((k + r) * 2 ^ e) = k * 2 ^ e := by
  have unit : (0 : ℚ) < 2 ^ e := by positivity
  have least : (2 : ℚ) ^ 52 ≤ k := by exact_mod_cast full
  have most : (k : ℚ) + 1 ≤ 2 ^ 53 := by exact_mod_cast digits
  have place : lastPlace ((k + r) * 2 ^ e) = e := by
    refine lastPlace_eq (by positivity) small ?_ (Or.inl ?_)
    · gcongr
      linarith
    · gcongr
      linarith
  rw [nearest, place, mul_div_cancel_right₀ _ unit.ne', toEven_add k nonneg (by linarith),
    if_pos below]

section Between

variable {x y z : Float} {v w u : ℚ}

theorem nearest_sub_lt (h : IsNumber x v) (h' : IsNumber y w) : nearest (w - v) < 2 ^ 1024 := by
  have least := h.nonneg
  calc nearest (w - v) ≤ nearest w := nearest_mono (by linarith)
    _ = w := h'.nearest_eq
    _ < 2 ^ 1024 := h'.lt_two_pow

variable (h : IsNumber x v) (h' : IsNumber y w) (le : v ≤ w)

include h h' le

/-- A difference that is rounded up has all its digits, and it is not a power of two. -/
theorem place_of_lt_nearest (up : w - v < nearest (w - v)) :
    -1074 < lastPlace (w - v) ∧
      2 ^ 52 < toEven ((w - v) / 2 ^ lastPlace (w - v)) := by
  have unit : (0 : ℚ) < 2 ^ lastPlace (w - v) := by positivity
  have pos : 0 < w - v := by
    rcases (sub_nonneg.mpr le).eq_or_lt with same | pos
    · rw [← same, nearest_zero] at up
      exact absurd up (lt_irrefl 0)
    · exact pos
  have normal : -1074 < lastPlace (w - v) := by
    refine lt_of_le_of_ne (le_max_right ..) fun last => ?_
    -- In the last place that there is, a difference is kept as it is.
    obtain ⟨k, worth⟩ := h.exists_places
    obtain ⟨l, worth'⟩ := h'.exists_places
    have least : (0 : ℚ) < 2 ^ (-1074 : ℤ) := by positivity
    have order : k ≤ l := by
      rw [worth, worth'] at le
      exact_mod_cast le_of_mul_le_mul_right le least
    have places : w - v = ((l - k : ℕ) : ℚ) * 2 ^ (-1074 : ℤ) := by
      rw [worth, worth', Nat.cast_sub order, sub_mul]
    rw [nearest, ← last] at up
    nth_rewrite 2 [places] at up
    rw [mul_div_cancel_right₀ _ least.ne', toEven_natCast, ← places] at up
    exact lt_irrefl _ up
  refine ⟨normal, ?_⟩
  have full := le_div_lastPlace pos normal
  have above : (w - v) / 2 ^ lastPlace (w - v) < toEven ((w - v) / 2 ^ lastPlace (w - v)) :=
    (div_lt_iff₀ unit).mpr up
  exact_mod_cast full.trans_lt above

/-- Less than the whole of a rounded difference is no more than the difference. -/
theorem nearest_part_le (proper : u ≤ 1 - 2 ^ (-53 : ℤ)) :
    nearest (nearest (w - v) * u) ≤ w - v := by
  have gap : IsNumber (y - x) (nearest (w - v)) := h'.sub h le (nearest_sub_lt h h')
  rcases le_or_gt (nearest (w - v)) (w - v) with down | up
  · have part : nearest (w - v) * u ≤ nearest (w - v) := by
      refine mul_le_of_le_one_right gap.nonneg (proper.trans ?_)
      norm_num
    calc nearest (nearest (w - v) * u) ≤ nearest (nearest (w - v)) := nearest_mono part
      _ = nearest (w - v) := gap.nearest_eq
      _ ≤ w - v := down
  · -- The difference is less than half a digit away from `k` of them, and `k / 2 ^ 53` of a digit
    -- is more than that half: the part comes down to `k - 1` digits.
    obtain ⟨normal, many⟩ := place_of_lt_nearest h h' le up
    have moved := (abs_le.mp (abs_nearest_sub_le_place (sub_nonneg.mpr le))).2
    have most := toEven_div_lastPlace_le (w - v)
    have rounded : nearest (w - v) = toEven ((w - v) / 2 ^ lastPlace (w - v)) *
      2 ^ lastPlace (w - v) := rfl
    generalize toEven ((w - v) / 2 ^ lastPlace (w - v)) = k at many most rounded
    generalize lastPlace (w - v) = e at normal moved rounded
    obtain ⟨n, rfl⟩ : ∃ n, k = n + 1 := Nat.exists_eq_succ_of_ne_zero (by omega)
    have unit : (0 : ℚ) < 2 ^ e := by positivity
    have lower : (2 : ℚ) ^ 52 < n + 1 := by exact_mod_cast many
    have upper : (n : ℚ) + 1 ≤ 2 ^ 53 := by exact_mod_cast most
    rw [rounded] at moved ⊢
    push_cast at moved ⊢
    calc nearest (((n : ℚ) + 1) * 2 ^ e * u)
        ≤ nearest (((n : ℚ) + (1 - (n + 1) / 2 ^ 53)) * 2 ^ e) := by
          refine nearest_mono ?_
          calc ((n : ℚ) + 1) * 2 ^ e * u ≤ ((n : ℚ) + 1) * 2 ^ e * (1 - 2 ^ (-53 : ℤ)) := by
                gcongr
            _ = ((n : ℚ) + (1 - (n + 1) / 2 ^ 53)) * 2 ^ e := by
                norm_num
                ring
      _ = n * 2 ^ e := by
          refine nearest_of_place (by omega) (by omega) normal.le ?_ ?_
          · linarith
          · linarith
      _ ≤ w - v := by linarith

/-- A number on the way from one number to another lies between them. -/
theorem IsNumber.between (weight : IsNumber z u) (proper : u < 1) :
    ∃ b, IsNumber (x + (y - x) * z) b ∧ v ≤ b ∧ b ≤ w := by
  have least := h.nonneg
  have part := nearest_part_le h h' le (weight.le_of_lt_one proper)
  have some := nearest_nonneg (nearest (w - v) * u)
  have most : nearest (v + nearest (nearest (w - v) * u)) ≤ w :=
    (nearest_mono (by linarith)).trans_eq h'.nearest_eq
  have low : v ≤ nearest (v + nearest (nearest (w - v) * u)) :=
    h.nearest_eq.symm.trans_le (nearest_mono (by linarith))
  have large := h'.lt_two_pow
  have gap : IsNumber (y - x) (nearest (w - v)) := h'.sub h le (nearest_sub_lt h h')
  have step : IsNumber ((y - x) * z) (nearest (nearest (w - v) * u)) :=
    gap.mul weight ((part.trans (sub_le_self w least)).trans_lt large)
  exact ⟨_, h.add step (most.trans_lt large), low, most⟩

end Between

end Cadence.Nearest
