import Cadence.Proofs.Quantity.Nearest
import Mathlib

/-!
# Rounding in floating point

The logical model of floating point rounds digits by shifting them, with one more digit and a mark
for whatever is left behind. What it comes to is the nearest number to the fraction that the digits
stand for. Only numbers that are not negative are covered: a run has no others.
-/

namespace Cadence.Nearest

open Float.Model hiding pack unpack
open Float.Model.UnpackedFloat

section Mantissa

/-- An extended mantissa stands for a fraction: its digits, one more digit, and whether anything is
left behind that. -/
def Stands (em : ExtendedMantissa) (q : ℚ) : Prop :=
  ∃ rest : ℚ, 0 ≤ rest ∧ rest < 1 / 2 ∧ (em.stickyBit = true ↔ rest ≠ 0) ∧
    q = em.mantissa + (em.roundBit.toNat / 2 + rest)

variable {em : ExtendedMantissa} {q : ℚ}

theorem toNat_bounds (b : Bool) : (0 : ℚ) ≤ b.toNat / 2 ∧ (b.toNat / 2 : ℚ) ≤ 1 / 2 := by
  cases b <;> norm_num

theorem Stands.bounds (h : Stands em q) : em.mantissa ≤ q ∧ q < em.mantissa + 1 := by
  obtain ⟨rest, nonneg, below, -, rfl⟩ := h
  have := toNat_bounds em.roundBit
  constructor <;> linarith

/-- Half of the fraction has one digit less. -/
theorem Stands.shiftRightOne (h : Stands em q) : Stands em.shiftRightOne (q / 2) := by
  obtain ⟨mantissa, roundBit, stickyBit⟩ := em
  obtain ⟨rest, nonneg, below, sticky, rfl⟩ := h
  have bounds := toNat_bounds roundBit
  have halves : (mantissa : ℚ) = 2 * (mantissa / 2 : ℕ) + (mantissa % 2 : ℕ) := by
    exact_mod_cast (Nat.div_add_mod mantissa 2).symm
  have last : (mantissa % 2 != 0).toNat = mantissa % 2 := by
    rcases Nat.mod_two_eq_zero_or_one mantissa with even | odd
    · simp [even]
    · simp [odd]
  refine ⟨(roundBit.toNat / 2 + rest) / 2, by linarith, by linarith, ?_, ?_⟩
  · cases roundBit with
    | false => simpa [ExtendedMantissa.shiftRightOne] using sticky
    | true =>
      have : (1 / 2 + rest) / 2 ≠ 0 := by positivity
      simpa [ExtendedMantissa.shiftRightOne] using this
  · simp only [ExtendedMantissa.shiftRightOne, last]
    linarith

theorem Stands.shiftRight (h : Stands em q) (n : ℕ) : Stands (em >>> n) (q / 2 ^ n) := by
  induction n with
  | zero =>
    rw [pow_zero, div_one]
    exact h
  | succ n ih =>
    rw [pow_succ, ← div_div]
    exact ih.shiftRightOne

/-- Rounding the mantissa rounds the fraction. -/
theorem Stands.roundedMantissa (h : Stands em q) : em.roundedMantissa = toEven q := by
  obtain ⟨mantissa, roundBit, stickyBit⟩ := em
  obtain ⟨rest, nonneg, below, sticky, rfl⟩ := h
  have bounds := toNat_bounds roundBit
  rw [toEven_add mantissa (by linarith) (by linarith)]
  cases roundBit with
  | false =>
    have below : ((false.toNat : ℕ) : ℚ) / 2 + rest < 1 / 2 := by simpa using below
    rw [if_pos below]
    cases stickyBit <;> rfl
  | true =>
    rw [if_neg (by simpa using nonneg)]
    cases stickyBit with
    | false =>
      have none : rest = 0 := by simpa using sticky
      rw [if_neg (by simp [none])]
      rfl
    | true =>
      have some : 0 < rest := lt_of_le_of_ne nonneg (by simpa [eq_comm] using sticky)
      rw [if_pos (by simpa using some)]
      rfl

theorem stands_exact (m : ℕ) : Stands (.ofMantissaAndAccuracy m .exact) m :=
  ⟨0, le_rfl, by norm_num, by simp [ExtendedMantissa.ofMantissaAndAccuracy],
    by simp [ExtendedMantissa.ofMantissaAndAccuracy]⟩

/-- Digits and a proper fraction behind them. -/
theorem stands_ofFraction (m : ℕ) {num den : ℕ} (proper : num < den) :
    Stands (.ofMantissaAndAccuracy m (accuracyOfFraction num den)) (m + num / den) := by
  have pos : (0 : ℚ) < den := by exact_mod_cast (Nat.zero_le num).trans_lt proper
  have below : (num / den : ℚ) < 1 := by
    rw [div_lt_one pos]
    exact_mod_cast proper
  unfold accuracyOfFraction
  split_ifs with none
  · simpa [none] using stands_exact m
  · have some : (0 : ℚ) < num / den := div_pos (by exact_mod_cast Nat.pos_of_ne_zero none) pos
    rcases lt_trichotomy (2 * num) den with less | half | more
    · have less' : (num / den : ℚ) < 1 / 2 := by
        rw [div_lt_div_iff₀ pos two_pos]
        exact_mod_cast (by omega : num * 2 < 1 * den)
      rw [Nat.compare_eq_lt.mpr less]
      exact ⟨num / den, some.le, less', by simp [ExtendedMantissa.ofMantissaAndAccuracy, some.ne'],
        by simp [ExtendedMantissa.ofMantissaAndAccuracy]⟩
    · have half' : (num / den : ℚ) = 1 / 2 := by
        rw [div_eq_div_iff pos.ne' two_ne_zero]
        exact_mod_cast (by omega : num * 2 = 1 * den)
      rw [Nat.compare_eq_eq.mpr half, half']
      exact ⟨0, le_rfl, by norm_num, by simp [ExtendedMantissa.ofMantissaAndAccuracy],
        by simp [ExtendedMantissa.ofMantissaAndAccuracy]⟩
    · have more' : (1 / 2 : ℚ) < num / den := by
        rw [div_lt_div_iff₀ two_pos pos]
        exact_mod_cast (by omega : 1 * den < num * 2)
      rw [Nat.compare_eq_gt.mpr more]
      refine ⟨num / den - 1 / 2, by linarith, by linarith, ?_, ?_⟩
      · simpa [ExtendedMantissa.ofMantissaAndAccuracy] using (sub_pos.mpr more').ne'
      · simp [ExtendedMantissa.ofMantissaAndAccuracy]

end Mantissa

section Rounding

variable {m : ℕ} {e : ℤ} {q : ℚ} {accuracy : Accuracy}

/-- The exponent to which digits are shifted is that of the last place of what they stand for. -/
theorem targetExponent_eq (pos : 0 < q) (above : (m : ℚ) ≤ q) (below : q < m + 1)
    (low : e ≤ lastPlace (q * 2 ^ e)) :
    Format.binary64.targetExponent (totalExponent m e) = lastPlace (q * 2 ^ e) := by
  have scaled : 0 < q * 2 ^ e := by positivity
  have target : Format.binary64.targetExponent (totalExponent m e) =
      max (m.log2 + e - 52) (-1074) := by
    simp only [Format.targetExponent, totalExponent, Format.mantissaBits, Format.minExponent]
    norm_num
    omega
  rw [target]
  rcases Nat.eq_zero_or_pos m with rfl | digits
  · have : Int.log 2 (q * 2 ^ e) < e := by
      rw [← Int.lt_zpow_iff_log_lt one_lt_two scaled]
      push_cast
      exact mul_lt_of_lt_one_left (by positivity) (by simpa using below)
    unfold lastPlace at low ⊢
    simp
    omega
  · have least : (2 ^ m.log2 : ℚ) ≤ q :=
      le_trans (by exact_mod_cast Nat.log2_self_le digits.ne') above
    have most : q < 2 ^ (m.log2 + 1) :=
      lt_of_lt_of_le below (by exact_mod_cast Nat.succ_le_of_lt Nat.lt_log2_self)
    have log : Int.log 2 (q * 2 ^ e) = m.log2 + e := by
      apply le_antisymm
      · rw [← Int.lt_add_one_iff, ← Int.lt_zpow_iff_log_lt one_lt_two scaled, add_right_comm]
        push_cast
        rw [zpow_add₀ two_ne_zero]
        gcongr
        exact_mod_cast most
      · rw [← Int.zpow_le_iff_le_log one_lt_two scaled]
        push_cast
        rw [zpow_add₀ two_ne_zero]
        gcongr
        exact_mod_cast least
    unfold lastPlace
    rw [log]

theorem mantissa_ofMantissaAndAccuracy (m : ℕ) (accuracy : Accuracy) :
    (ExtendedMantissa.ofMantissaAndAccuracy m accuracy).mantissa = m := by
  rcases accuracy with _ | (_ | _ | _) <;> rfl

/-- Digits are shifted until the last of them is in the last place of what they stand for. -/
theorem shiftToTargetExponent_eq (stands : Stands (.ofMantissaAndAccuracy m accuracy) q)
    (pos : 0 < q) (low : e ≤ lastPlace (q * 2 ^ e)) :
    ∃ em, shiftToTargetExponent .binary64 m e accuracy = (em, lastPlace (q * 2 ^ e)) ∧
      Stands em (q * 2 ^ e / 2 ^ lastPlace (q * 2 ^ e)) := by
  obtain ⟨above, below⟩ := stands.bounds
  rw [mantissa_ofMantissaAndAccuracy] at above below
  dsimp only [shiftToTargetExponent, shiftToExponent]
  rw [targetExponent_eq pos above below low]
  generalize lastPlace (q * 2 ^ e) = place at low ⊢
  obtain ⟨n, rfl⟩ := Int.le.dest low
  have shift : (e + n - e).toNat = n := by omega
  rw [shift]
  refine ⟨_, rfl, ?_⟩
  have scaled : q * 2 ^ e / 2 ^ (e + n : ℤ) = q / 2 ^ n := by
    rw [zpow_add₀ two_ne_zero, zpow_natCast]
    field_simp
  rw [scaled]
  exact stands.shiftRight n

/-- Digits that fit are left where they are. -/
theorem shiftToTargetExponent_of_lt (digits : m < 2 ^ 53) (small : -1074 ≤ e) :
    shiftToTargetExponent .binary64 m e .exact = (⟨m, false, false⟩, e) := by
  have log : m.log2 ≤ 52 := by
    rcases Nat.eq_zero_or_pos m with rfl | pos
    · simp
    · exact Nat.lt_succ_iff.mp ((Nat.log2_lt pos.ne').mpr digits)
  have shift : (Format.binary64.targetExponent (totalExponent m e) - e).toNat = 0 := by
    simp only [Format.targetExponent, totalExponent, Format.mantissaBits, Format.minExponent]
    norm_num
    omega
  dsimp only [shiftToTargetExponent, shiftToExponent]
  rw [shift]
  exact Prod.ext rfl (by simp)

/-- A digit too many is shifted out. -/
theorem shiftToTargetExponent_of_carry (small : -1074 ≤ e) :
    shiftToTargetExponent .binary64 (2 ^ 53) e .exact = (⟨2 ^ 52, false, false⟩, e + 1) := by
  have shift : (Format.binary64.targetExponent (totalExponent (2 ^ 53) e) - e).toNat = 1 := by
    simp only [Format.targetExponent, totalExponent, Format.mantissaBits, Format.minExponent,
      Nat.log2_two_pow]
    norm_num
    omega
  dsimp only [shiftToTargetExponent, shiftToExponent]
  rw [shift]
  rfl

end Rounding

/-- Digits and an exponent as they are kept: at most 53 digits, and fewer only in the last place
that there is. -/
structure Canonical (m : ℕ) (e : ℤ) : Prop where
  digits : m < 2 ^ 53
  small : -1074 ≤ e
  full : 2 ^ 52 ≤ m ∨ e = -1074

/-- A number in floating point that is not negative stands for a fraction. -/
def Denotes : UnpackedFloat → ℚ → Prop
  | .zero .positive, v => v = 0
  | .finite .positive m e _, v => Canonical m e ∧ v = m * 2 ^ e
  | _, _ => False

/-- Digits are shifted twice: once before they are rounded, and once after, for the carry. -/
theorem roundWithAccuracy_of_shifts {m : ℕ} {e place last : ℤ} {accuracy : Accuracy}
    {em final : ExtendedMantissa}
    (first : shiftToTargetExponent .binary64 m e accuracy = (em, place))
    (second : shiftToTargetExponent .binary64 em.roundedMantissa place .exact = (final, last)) :
    roundWithAccuracy .binary64 .positive m e accuracy =
      if h : final.mantissa = 0 then .zero .positive
      else .finite .positive final.mantissa last (Nat.pos_of_ne_zero h) := by
  simp only [roundWithAccuracy, first, second]

/-- Rounding gives the nearest number. -/
theorem denotes_roundWithAccuracy {m : ℕ} {e : ℤ} {q : ℚ} {accuracy : Accuracy}
    (stands : Stands (.ofMantissaAndAccuracy m accuracy) q) (pos : 0 < q)
    (low : e ≤ lastPlace (q * 2 ^ e)) :
    Denotes (roundWithAccuracy .binary64 .positive m e accuracy) (nearest (q * 2 ^ e)) := by
  obtain ⟨em, shifted, stands⟩ := shiftToTargetExponent_eq stands pos low
  have small : -1074 ≤ lastPlace (q * 2 ^ e) := le_max_right ..
  have full := le_toEven_div_lastPlace (x := q * 2 ^ e) (by positivity)
  -- Rounding up may carry into a digit too many; all of its digits but the first are zero then.
  rcases (toEven_div_lastPlace_le (q * 2 ^ e)).lt_or_eq with fits | carry
  · have kept := shiftToTargetExponent_of_lt fits small
    rw [← stands.roundedMantissa] at kept
    rw [roundWithAccuracy_of_shifts shifted kept, stands.roundedMantissa]
    split_ifs with none
    · have none : toEven (q * 2 ^ e / 2 ^ lastPlace (q * 2 ^ e)) = 0 := none
      simp [Denotes, nearest, none]
    · refine ⟨⟨fits, small, ?_⟩, rfl⟩
      exact (small.lt_or_eq).imp full Eq.symm
  · have carried := shiftToTargetExponent_of_carry small
    rw [← carry, ← stands.roundedMantissa] at carried
    rw [roundWithAccuracy_of_shifts shifted carried, dif_neg (by norm_num)]
    refine ⟨⟨by norm_num, by omega, Or.inl le_rfl⟩, ?_⟩
    rw [nearest, carry, zpow_add₀ two_ne_zero]
    push_cast
    ring

end Cadence.Nearest
