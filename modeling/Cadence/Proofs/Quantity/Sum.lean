import Cadence.Proofs.Quantity.Float
import Mathlib

/-!
# Sums and differences in floating point

A sum is the nearest number to the exact one, and so is a difference that is not negative: digits
are moved up to the lower of two exponents, where they add up exactly, and are rounded once.
-/

namespace Cadence.Nearest

open Float.Model hiding pack unpack
open Float.Model.UnpackedFloat

variable {x y : Float} {v w : ℚ}

/-- Digits that are moved up stand for what they stood for. -/
theorem decreaseExponent_value (m : ℕ) {e t : ℤ} (low : t ≤ e) :
    ((decreaseExponent m e t).1 * 2 ^ t : ℚ) = m * 2 ^ e := by
  obtain ⟨k, rfl⟩ := Int.le.dest low
  have shift : (t + k - t).toNat = k := by omega
  simp only [decreaseExponent, shift, Nat.shiftLeft_eq]
  rw [zpow_add₀ two_ne_zero, zpow_natCast]
  push_cast
  ring

/-- A sum is the nearest number to the exact one. -/
theorem denotes_add {a b : UnpackedFloat} (h : Denotes a v) (h' : Denotes b w) :
    Denotes (UnpackedFloat.add .binary64 a b) (nearest (v + w)) := by
  match a, b, h, h' with
  | .zero .positive, .zero .positive, h, h' =>
    rw [show v = 0 from h, show w = 0 from h', add_zero, nearest_zero]
    exact rfl
  | .zero .positive, .finite .positive n f pos, h, h' =>
    rw [show v = 0 from h, zero_add, h'.nearest_eq]
    exact h'
  | .finite .positive m e pos, .zero .positive, h, h' =>
    rw [show w = 0 from h', add_zero, h.nearest_eq]
    exact h
  | .finite .positive m e pos, .finite .positive n f pos', ⟨_, value⟩, ⟨_, value'⟩ =>
    have sum : v + w = (((decreaseExponent m e (min e f)).1 +
        (decreaseExponent n f (min e f)).1 : ℕ) : ℚ) * 2 ^ min e f := by
      rw [Nat.cast_add, add_mul, decreaseExponent_value m (min_le_left e f),
        decreaseExponent_value n (min_le_right e f), value, value']
    rw [sum]
    exact denotes_normalize _ _

/-- A difference that is not negative is the nearest number to the exact one. -/
theorem denotes_sub {a b : UnpackedFloat} (h : Denotes a v) (h' : Denotes b w) (le : w ≤ v) :
    Denotes (UnpackedFloat.sub .binary64 a b) (nearest (v - w)) := by
  match a, b, h, h' with
  | .zero .positive, .zero .positive, h, h' =>
    rw [show v = 0 from h, show w = 0 from h', sub_zero, nearest_zero]
    exact rfl
  | .zero .positive, .finite .positive n f pos, h, ⟨_, value⟩ =>
    have : 0 < w := by rw [value]; positivity
    exact absurd le (by rw [show v = 0 from h]; exact this.not_ge)
  | .finite .positive m e pos, .zero .positive, h, h' =>
    rw [show w = 0 from h', sub_zero, h.nearest_eq]
    exact h
  | .finite .positive m e pos, .finite .positive n f pos', ⟨_, value⟩, ⟨_, value'⟩ =>
    obtain ⟨k, first⟩ : ∃ k, (decreaseExponent m e (min e f)).1 = k := ⟨_, rfl⟩
    obtain ⟨l, second⟩ : ∃ l, (decreaseExponent n f (min e f)).1 = l := ⟨_, rfl⟩
    have worth : v = k * 2 ^ min e f := by
      rw [← first, decreaseExponent_value m (min_le_left e f), value]
    have worth' : w = l * 2 ^ min e f := by
      rw [← second, decreaseExponent_value n (min_le_right e f), value']
    have below : l ≤ k := by
      rw [worth, worth'] at le
      exact_mod_cast le_of_mul_le_mul_right le (by positivity)
    have digits : (k : ℤ) - l = ((k - l : ℕ) : ℤ) := by omega
    have difference : v - w = ((k - l : ℕ) : ℚ) * 2 ^ min e f := by
      rw [worth, worth', Nat.cast_sub below, sub_mul]
    have subtracted : UnpackedFloat.sub .binary64 (.finite .positive m e pos)
        (.finite .positive n f pos') =
          UnpackedFloat.normalize .binary64 ((k : ℤ) - l) (min e f) .positive := by
      rw [← first, ← second]
      rfl
    rw [subtracted, difference, digits]
    exact denotes_normalize _ _

theorem IsNumber.add (h : IsNumber x v) (h' : IsNumber y w) (large : nearest (v + w) < 2 ^ 1024) :
    IsNumber (x + y) (nearest (v + w)) :=
  isNumber_pack (denotes_add h h') large

theorem IsNumber.sub (h : IsNumber x v) (h' : IsNumber y w) (le : w ≤ v)
    (large : nearest (v - w) < 2 ^ 1024) : IsNumber (x - y) (nearest (v - w)) :=
  isNumber_pack (denotes_sub h h' le) large

end Cadence.Nearest
