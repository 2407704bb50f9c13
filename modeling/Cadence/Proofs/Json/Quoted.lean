import Cadence.Json.Printer
import Cadence.Json.Reader
import Mathlib.Tactic.SplitIfs

/-!
# Quoted texts read back

Whatever characters a text holds, each of them is read back from the way it is written in quotes.
-/

namespace Cadence.Json

theorem hexValue?_hexDigit {n : Nat} (h : n < 16) : hexValue? (hexDigit n) = some n := by
  have all : ∀ n ∈ List.range 16, hexValue? (hexDigit n) = some n := by decide
  exact all n (List.mem_range.mpr h)

/-- A character is read back from the way it is written. -/
theorem stringBody_escape (c : Char) (rest : List Char) :
    stringBody (escape c ++ rest) = cons c (stringBody rest) := by
  unfold escape
  split_ifs with quote backslash feed carriage tab back form control
  · subst quote
    rfl
  · subst backslash
    rfl
  · subst feed
    rfl
  · subst carriage
    rfl
  · subst tab
    rfl
  · subst back
    rfl
  · subst form
    rfl
  · have high : hexValue? (hexDigit (c.toNat / 16)) = some (c.toNat / 16) :=
      hexValue?_hexDigit (by omega)
    have low : hexValue? (hexDigit (c.toNat % 16)) = some (c.toNat % 16) :=
      hexValue?_hexDigit (by omega)
    have unit : hexUnit? '0' '0' (hexDigit (c.toNat / 16)) (hexDigit (c.toNat % 16)) =
        some c.toNat := by
      have zero : hexValue? '0' = some 0 := rfl
      rw [hexUnit?, zero, high, low]
      exact congrArg some (by omega)
    simp only [List.cons_append, List.nil_append]
    rw [stringBody, unit]
    simp only
    rw [if_pos (Or.inl (by omega)), Char.ofNat_toNat]
  · simp only [List.cons_append, List.nil_append]
    rw [stringBody.eq_def]
    split
    next same => cases same
    next same => exact absurd (List.cons.inj same).1 quote
    next same => exact absurd (List.cons.inj same).1 backslash
    next same => exact absurd (List.cons.inj same).1 backslash
    next same =>
      cases same
      rw [if_neg control]

/-- A text is read back from its characters as they are written, up to the closing quote. -/
theorem stringBody_flatMap_escape (s rest : List Char) :
    stringBody (s.flatMap escape ++ '"' :: rest) = some (s, rest) := by
  induction s with
  | nil => rfl
  | cons c s ih =>
    rw [List.flatMap_cons, List.append_assoc, stringBody_escape, ih]
    rfl

end Cadence.Json
