import Cadence.Decimal.Layout
import Mathlib.Data.Nat.Digits.Defs

/-!
# Characters of written numbers

However a number in floating point is laid out, it is written in letters, digits, points and minus
signs. None of them is blank, a slash or a line break, so a number can be told from what stands
behind it.
-/

namespace Cadence.Decimal

/-- A character that numbers are written with. -/
def isNumeral (c : Char) : Bool := c.isAlphanum || c == '.' || c == '-'

theorem isNumeral_of_isDigit {c : Char} (digit : c.isDigit = true) : isNumeral c = true := by
  simp [isNumeral, Char.isAlphanum, digit]

theorem isNumeral_of_mem_toDigits {n : Nat} {c : Char} (h : c ∈ Nat.toDigits 10 n) :
    isNumeral c = true :=
  isNumeral_of_isDigit (Nat.isDigit_of_mem_toDigits (by decide) (by decide) h)

theorem isDigit_of_mem_zeros {n : Nat} {c : Char} (h : c ∈ zeros n) : c.isDigit = true := by
  rw [List.eq_of_mem_replicate h]
  rfl

theorem isNumeral_of_mem_zeros {n : Nat} {c : Char} (h : c ∈ zeros n) : isNumeral c = true :=
  isNumeral_of_isDigit (isDigit_of_mem_zeros h)

theorem isNumeral_positional (d : Decimal) : ∀ c ∈ d.positional, isNumeral c = true := by
  have digit (c : Char) (member : c ∈ d.digits) : isNumeral c = true :=
    isNumeral_of_mem_toDigits member
  unfold positional
  dsimp only
  split_ifs
  · simp [isNumeral]
  · simp only [List.forall_mem_cons, List.forall_mem_append]
    exact ⟨rfl, rfl, fun c => isNumeral_of_mem_zeros, digit⟩
  · rw [List.forall_mem_append]
    exact ⟨digit, fun c => isNumeral_of_mem_zeros⟩
  · rw [List.forall_mem_append, List.forall_mem_cons]
    exact ⟨fun c member => digit c (List.mem_of_mem_take member), rfl,
      fun c member => digit c (List.mem_of_mem_drop member)⟩

theorem isNumeral_withPlaces (scaled places : Nat) :
    ∀ c ∈ withPlaces scaled places, isNumeral c = true := by
  unfold withPlaces
  dsimp only
  generalize size : zeros (places + 1 - (Nat.toDigits 10 scaled).length) ++ Nat.toDigits 10 scaled
    = ds
  have digit : ∀ c ∈ ds, isNumeral c = true := by
    rw [← size, List.forall_mem_append]
    exact ⟨fun c => isNumeral_of_mem_zeros, fun c => isNumeral_of_mem_toDigits⟩
  split_ifs
  · exact fun c member => digit c (List.mem_of_mem_take member)
  · rw [List.forall_mem_append, List.forall_mem_cons]
    exact ⟨fun c member => digit c (List.mem_of_mem_take member), rfl,
      fun c member => digit c (List.mem_of_mem_drop member)⟩

/-- The words for what is no number or infinite and the sign in front are of the class as well. -/
theorem isNumeral_write {zero : List Char} {layout : Nat → Int → List Char} (x : Float)
    (none : ∀ c ∈ zero, isNumeral c = true) (some : ∀ m e, ∀ c ∈ layout m e, isNumeral c = true) :
    ∀ c ∈ write zero layout x, isNumeral c = true := by
  unfold write
  split
  · exact List.all_eq_true.mp rfl
  · next sign _ => cases sign <;> exact List.all_eq_true.mp rfl
  · next sign _ =>
    cases sign
    · exact List.forall_mem_cons.mpr ⟨rfl, none⟩
    · exact none
  · next sign m e _ _ =>
    cases sign
    · exact List.forall_mem_cons.mpr ⟨rfl, some m e⟩
    · exact some m e

theorem isNumeral_plain (x : Float) : ∀ c ∈ (plain x).toList, isNumeral c = true := by
  rw [plain, String.toList_ofList]
  exact isNumeral_write x (List.all_eq_true.mp rfl) fun m e => isNumeral_positional _

theorem isNumeral_fixed (places : Nat) (x : Float) :
    ∀ c ∈ (fixed places x).toList, isNumeral c = true := by
  rw [fixed, String.toList_ofList]
  exact isNumeral_write x (isNumeral_withPlaces 0 places) fun m e => isNumeral_withPlaces _ places

end Cadence.Decimal
