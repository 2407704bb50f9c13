import Cadence.Proofs.Decimal.Grammar
import Cadence.Proofs.Decimal.Layout
import Cadence.Proofs.Decimal.Shortest
import Mathlib

/-!
# Plain number texts read back

A finite float, written with the fewest digits and without an exponent, is a number text that names
the same float.
-/

namespace Cadence.Decimal

open Nearest
open Float.Model (UnpackedFloat)

section Positional

variable {c : Char} {d : Decimal}

theorem isDigit_of_mem_digits (h : c ∈ d.digits) : c.isDigit :=
  Nat.isDigit_of_mem_toDigits (by norm_num) le_rfl h

/-- Positional notation consists of digits that stand for the same number. -/
theorem digitsText_positional (d : Decimal) :
    ∃ digits places, DigitsText digits places d.positional ∧
      (Nat.ofDigitChars 10 digits 0 * 10 ^ (-places : ℤ) : ℚ) = d.toRat := by
  have value : Nat.ofDigitChars 10 d.digits 0 = d.coefficient := Nat.ofDigitChars_ten_toDigits
  have some : d.digits ≠ [] := Nat.toDigits_ne_nil
  have length : 0 < d.digits.length := List.length_pos_iff.mpr some
  have point : d.point = d.digits.length + d.exponent := rfl
  simp only [positional]
  split_ifs with none front back
  · refine ⟨['0'], 0, .whole (by simp) (by simp), ?_⟩
    simp [toRat, none, Nat.ofDigitChars]
  -- All digits stand behind the point, with zeros in front of them.
  · obtain ⟨n, places⟩ : ∃ n, n = (-d.point).toNat := ⟨_, rfl⟩
    rw [← places]
    have all : ∀ c ∈ ['0'] ++ (zeros n ++ d.digits), c.isDigit := by
      intro c member
      rcases List.mem_append.mp member with zero | behind
      · rw [List.mem_singleton.mp zero]
        rfl
      · exact (List.mem_append.mp behind).elim isDigit_of_mem_zeros isDigit_of_mem_digits
    have value' : Nat.ofDigitChars 10 (['0'] ++ (zeros n ++ d.digits)) 0 = d.coefficient := by
      have front : ['0'] ++ zeros n = zeros (n + 1) := List.replicate_succ.symm
      rw [← List.append_assoc, front, Nat.ofDigitChars_append, zeros,
        Nat.ofDigitChars_replicate_zero, mul_zero, value]
    have size : (-(zeros n ++ d.digits).length : ℤ) = d.exponent := by
      simp only [zeros, List.length_append, List.length_replicate]
      omega
    refine ⟨_, _, .point all (List.cons_ne_nil _ _), ?_⟩
    rw [value', size, toRat]
  -- All digits stand before the point, with zeros behind them.
  · obtain ⟨n, places⟩ : ∃ n, n = (d.point - d.digits.length).toNat := ⟨_, rfl⟩
    rw [← places]
    have all : ∀ c ∈ d.digits ++ zeros n, c.isDigit := fun c member =>
      (List.mem_append.mp member).elim isDigit_of_mem_digits isDigit_of_mem_zeros
    refine ⟨_, 0, .whole all (by simp [some]), ?_⟩
    obtain exponent : d.exponent = n := by omega
    rw [Nat.ofDigitChars_append, value, zeros, Nat.ofDigitChars_replicate_zero, toRat, exponent,
      zpow_natCast]
    push_cast
    ring
  · obtain ⟨n, places⟩ : ∃ n, n = d.point.toNat := ⟨_, rfl⟩
    rw [← places]
    have divided : d.digits.take n ++ d.digits.drop n = d.digits := List.take_append_drop n d.digits
    have size : (-(d.digits.drop n).length : ℤ) = d.exponent := by
      rw [List.length_drop]
      omega
    have all : ∀ c ∈ d.digits.take n ++ d.digits.drop n, c.isDigit := by
      rw [divided]
      exact fun c => isDigit_of_mem_digits
    refine ⟨_, _, .point all (by rwa [divided]), ?_⟩
    rw [divided, value, size, toRat]

end Positional

section Write

variable {s : List Char} {v : ℚ} {x : Float}

/-- Every float of the opposite sign is the negative of one that is worth as much. -/
theorem exists_neg_eq {u : UnpackedFloat} (negative : x.toModel.unpack = u.neg)
    (number : Denotes u v) (large : v < 2 ^ 1024) : ∃ y, IsNumber y v ∧ x = -y := by
  have kept : IsNumber (.ofModel (.pack u)) v := isNumber_pack number large
  have same : (Float.ofModel (.pack u)).toModel.unpack = u := Denotes.unique kept number
  exact ⟨_, kept, (neg_eq_of_unpack (by rw [negative, same])).symm⟩

/-- A finite float is written as the digits of a positive one, with a minus in front if it is
negative. -/
theorem exists_write (zero : List Char) (layout : ℕ → ℤ → List Char) (finite : x.isFinite) :
    ∃ (negative : Bool) (y : Float) (body : List Char),
      x = (if negative then -y else y) ∧
      write zero layout x = (if negative then ['-'] else []) ++ body ∧
      ((IsNumber y 0 ∧ body = zero) ∨
        ∃ m e, 0 < m ∧ Canonical m e ∧ e ≤ 971 ∧ IsNumber y (m * 2 ^ e) ∧ body = layout m e) := by
  unfold write
  have finite : x.toModel.unpack.isFinite := finite
  split
  next kept =>
    rw [kept] at finite
    cases finite
  next sign kept =>
    rw [kept] at finite
    cases finite
  next sign kept =>
    have worth : Denotes (.zero .positive) 0 := rfl
    cases sign with
    | positive => exact ⟨false, x, zero, rfl, rfl, Or.inl ⟨by rwa [IsNumber, kept], rfl⟩⟩
    | negative =>
      obtain ⟨y, number, same⟩ := exists_neg_eq (u := .zero .positive) kept worth (by norm_num)
      exact ⟨true, y, zero, same, rfl, Or.inl ⟨number, rfl⟩⟩
  next sign m e pos kept =>
    obtain ⟨canonical, large⟩ := canonical_of_unpack kept
    have worth : Denotes (.finite .positive m e pos) (m * 2 ^ e) := ⟨canonical, rfl⟩
    cases sign with
    | positive =>
      exact ⟨false, x, layout m e, rfl, rfl,
        Or.inr ⟨m, e, pos, canonical, large, by rwa [IsNumber, kept], rfl⟩⟩
    | negative =>
      obtain ⟨y, number, same⟩ := exists_neg_eq (u := .finite .positive m e pos) kept worth
        (canonical.lt_two_pow large)
      exact ⟨true, y, layout m e, same, rfl,
        Or.inr ⟨m, e, pos, canonical, large, number, rfl⟩⟩

/-- A text without a sign that names whatever is of that worth. -/
def Names (s : List Char) (v : ℚ) : Prop :=
  ∀ x, IsNumber x v → UnsignedText x s

/-- Digits that stand for a number name the double that the number is rounded to. -/
theorem names_positional {d : Decimal} (rounded : nearest d.toRat = v) (large : v < 2 ^ 1024) :
    Names d.positional v := by
  intro x number
  obtain ⟨digits, places, text, worth⟩ := digitsText_positional d
  rw [← List.append_nil d.positional]
  refine .digits text .none ?_
  rw [zero_sub, worth]
  exact ⟨fun _ => by rwa [rounded], fun infinite => absurd (rounded ▸ large) (not_lt.mpr infinite)⟩

/-- A finite float is named by any text whose body names what its digits are worth. -/
theorem numberText_write {zero : List Char} {layout : ℕ → ℤ → List Char} (none : Names zero 0)
    (some : ∀ {m e}, 0 < m → Canonical m e → e ≤ 971 → Names (layout m e) (m * 2 ^ e))
    (finite : x.isFinite) : NumberText x (write zero layout x) := by
  obtain ⟨negative, y, body, rfl, text, digits⟩ := exists_write zero layout finite
  have unsigned : UnsignedText y body := by
    rcases digits with ⟨number, rfl⟩ | ⟨m, e, pos, canonical, large, number, rfl⟩
    · exact none y number
    · exact some pos canonical large y number
  rw [text]
  cases negative with
  | true => exact .signed .minus unsigned
  | false => exact .signed .none unsigned

end Write

section Plain

variable {x : Float} {m : ℕ} {e : ℤ}

/-- The digits of a double name the double. -/
theorem names_shortest (pos : 0 < m) (canonical : Canonical m e) (large : e ≤ 971) :
    Names (shortest .up m e).positional (m * 2 ^ e) :=
  names_positional (nearest_shortest canonical pos .up) (canonical.lt_two_pow large)

theorem names_zero : Names ['0'] 0 := by
  have worth : nearest (Decimal.toRat ⟨0, 0⟩) = 0 := by
    rw [toRat, Nat.cast_zero, zero_mul, nearest_zero]
  exact names_positional worth (by norm_num)

/-- The plain text of a finite float names the float. -/
theorem numberText_plain (finite : x.isFinite) : NumberText x (plain x).toList := by
  rw [plain, String.toList_ofList]
  exact numberText_write names_zero names_shortest finite

end Plain

end Cadence.Decimal
