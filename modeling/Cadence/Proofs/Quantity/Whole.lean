import Cadence.Proofs.Quantity.Scientific
import Cadence.Quantity

/-!
# Whole numbers next to a number in floating point

Cutting off the places of a number and rounding it up are exact, whatever its size, as long as the
result fits into 64 binary digits.
-/

namespace Cadence.Nearest

open Float.Model hiding pack unpack
open Float.Model.UnpackedFloat

variable {x y : Float} {v w : ℚ}

theorem IsNumber.nonneg (h : IsNumber x v) : 0 ≤ v := by
  unfold IsNumber at h
  generalize x.toModel.unpack = u at h
  match u, h with
  | .zero .positive, h => exact (show v = 0 from h).ge
  | .finite .positive m e pos, ⟨_, value⟩ =>
    rw [value]
    positivity

/-- What a number is worth is not rounded any more. -/
theorem IsNumber.nearest_eq (h : IsNumber x v) : nearest v = v := Denotes.nearest_eq h

theorem IsNumber.lt_iff (h : IsNumber x v) (h' : IsNumber y w) : x < y ↔ v < w := by
  show decide (x.toModel < y.toModel) = true ↔ _
  rw [decide_eq_true_iff]
  show (x.toModel.unpack.compare y.toModel.unpack == some .lt) = true ↔ _
  rw [compare_eq h h', beq_iff_eq, Option.some.injEq, compare_lt_iff_lt]

/-- The places of a number are shifted out. -/
theorem toInt_eq_floor {u : UnpackedFloat} (h : Denotes u v) (low high : ℤ) :
    u.toInt low high = ⌊v⌋₊ := by
  match u, h with
  | .zero .positive, h =>
    rw [show v = 0 from h, Nat.floor_zero]
    rfl
  | .finite .positive m e pos, ⟨_, value⟩ =>
    obtain ⟨k, up⟩ : ∃ k : ℕ, k = (e - 0).toNat := ⟨_, rfl⟩
    obtain ⟨l, down⟩ : ∃ l : ℕ, l = (0 - (e - k)).toNat := ⟨_, rfl⟩
    have cut : UnpackedFloat.toInt low high (.finite .positive m e pos) =
        (ExtendedMantissa.ofMantissaAndAccuracy (m <<< k) .exact >>> l).mantissa := by
      simp only [UnpackedFloat.toInt, roundToInt, decreaseExponent, shiftToExponent, up, down]
      rfl
    have worth : v = ((m <<< k : ℕ) : ℚ) / 2 ^ l := by
      rw [value, eq_div_iff (by positivity), Nat.shiftLeft_eq, mul_assoc, ← zpow_natCast 2 l,
        ← zpow_add₀ two_ne_zero, show e + l = k by omega, zpow_natCast]
      push_cast
      rfl
    obtain ⟨least, most⟩ := ((stands_exact (m <<< k)).shiftRight l).bounds
    rw [cut, worth]
    exact_mod_cast ((Nat.floor_eq_iff (by positivity)).mpr ⟨least, most⟩).symm

/-- Cutting off the places gives the whole number that is not above. -/
theorem IsNumber.floorFloat_eq (h : IsNumber x v) (large : v < 2 ^ 64) :
    Quantity.floorFloat x = ⌊v⌋₊ := by
  have fits : ⌊v⌋₊ < UInt64.size := (Nat.floor_lt h.nonneg).mpr (by exact_mod_cast large)
  show (UInt64.ofNatClamp (x.toModel.unpack.toInt 0 (UInt64.size - 1)).toNat).toNat = _
  rw [toInt_eq_floor h, Int.toNat_natCast, UInt64.ofNatClamp, dif_pos fits]
  rfl

/-- Large numbers have no places. -/
theorem IsNumber.floor_eq_of_large (h : IsNumber x v) (large : 2 ^ 53 ≤ v) : (⌊v⌋₊ : ℚ) = v := by
  unfold IsNumber at h
  generalize x.toModel.unpack = u at h
  match u, h with
  | .zero .positive, h =>
    rw [show v = 0 from h, Nat.floor_zero, Nat.cast_zero]
  | .finite .positive m e pos, ⟨canonical, value⟩ =>
    have positive : 0 ≤ e := by
      by_contra negative
      have : v < 2 ^ 53 :=
        calc v = m * 2 ^ e := value
          _ ≤ m * 2 ^ (0 : ℤ) := by
            gcongr
            · exact one_le_two
            · omega
          _ = m := by rw [zpow_zero, mul_one]
          _ < 2 ^ 53 := by exact_mod_cast canonical.digits
      exact absurd large this.not_ge
    obtain ⟨k, rfl⟩ := Int.eq_ofNat_of_zero_le positive
    have whole : v = (m * 2 ^ k : ℕ) := by
      rw [value, zpow_natCast]
      push_cast
      rfl
    rw [whole, Nat.floor_natCast]

/-- The whole number that is not above a number needs no rounding. -/
theorem IsNumber.nearest_floor (h : IsNumber x v) : nearest ⌊v⌋₊ = ⌊v⌋₊ := by
  rcases lt_or_ge v (2 ^ 53) with small | large
  · exact nearest_natCast ((Nat.floor_lt h.nonneg).mpr (by exact_mod_cast small))
  · rw [h.floor_eq_of_large large, h.nearest_eq]

theorem IsNumber.floor (h : IsNumber x v) (large : v < 2 ^ 64) :
    IsNumber (Float.ofNat ⌊v⌋₊) ⌊v⌋₊ := by
  have fits : ⌊v⌋₊ < 2 ^ 64 := (Nat.floor_lt h.nonneg).mpr (by exact_mod_cast large)
  have := isNumber_ofNat (nearest_natCast_lt (fits.trans (by norm_num)))
  rwa [h.nearest_floor] at this

/-- Rounding up gives the least whole number that is not below. -/
theorem IsNumber.ceilFloat_eq (h : IsNumber x v) (large : v < 2 ^ 64) :
    Quantity.ceilFloat x = ⌈v⌉₊ := by
  have floor := h.floor large
  unfold Quantity.ceilFloat
  dsimp only
  rw [h.floorFloat_eq large]
  split_ifs with below
  · have below := (floor.lt_iff h).mp below
    refine ((Nat.ceil_eq_iff (Nat.succ_ne_zero _)).mpr ⟨?_, ?_⟩).symm
    · simpa using below
    · exact_mod_cast (Nat.lt_floor_add_one v).le
  · have above : v ≤ ⌊v⌋₊ := by
      rw [floor.lt_iff h] at below
      exact not_lt.mp below
    exact le_antisymm (Nat.floor_le_ceil v) (Nat.ceil_le.mpr above)

end Cadence.Nearest
