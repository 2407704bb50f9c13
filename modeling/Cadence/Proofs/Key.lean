import Cadence.Key
import Std.Data.String.ToNat

/-!
# Keys are told apart

The text of a key determines the stem, the worker, the iteration and the moment it was made of,
whatever the stem: the last three are numbers, whose digits hold no separator, and the sign of a
moment stands between two separators, where no number ends.
-/

namespace Cadence.Key

theorem digits_inj {m n : Nat} (h : Nat.toDigits 10 m = Nat.toDigits 10 n) : m = n := by
  simpa using congrArg (fun digits => Nat.ofDigitChars 10 digits 0) h

/-- None of the digits of a number separates the parts of a key. -/
theorem dash_notMem_digits (n : Nat) : '-' ∉ Nat.toDigits 10 n := by
  intro member
  have digit := Nat.isDigit_of_mem_toDigits (by decide) (by decide) member
  exact absurd digit (by decide)

/-- A list can be cut at its last separator in one way only. -/
theorem append_dash_inj {before before' after after' : List Char} (h : '-' ∉ after)
    (h' : '-' ∉ after') (same : before ++ '-' :: after = before' ++ '-' :: after') :
    before = before' ∧ after = after' := by
  rcases List.append_eq_append_iff.mp same with ⟨rest, rfl, tail⟩ | ⟨rest, rfl, tail⟩
  · cases rest with
    | nil => exact ⟨(List.append_nil _).symm, (List.cons.inj tail).2⟩
    | cons c rest =>
      have inside := (List.cons.inj tail).2
      exact absurd (by simp [inside]) h
  · cases rest with
    | nil => exact ⟨List.append_nil _, (List.cons.inj tail).2.symm⟩
    | cons c rest =>
      have inside := (List.cons.inj tail).2
      exact absurd (by simp [inside]) h'

/-- A number behind a separator can be cut off in one way only. -/
theorem append_digits_inj {before before' : List Char} {n n' : Nat}
    (same : before ++ '-' :: Nat.toDigits 10 n = before' ++ '-' :: Nat.toDigits 10 n') :
    before = before' ∧ n = n' := by
  have cut := append_dash_inj (dash_notMem_digits n) (dash_notMem_digits n') same
  exact ⟨cut.1, digits_inj cut.2⟩

/-- What ends in a number does not end in a separator. -/
theorem append_digits_ne_append_dash (before after : List Char) (n : Nat) :
    before ++ '-' :: Nat.toDigits 10 n ≠ after ++ ['-'] := by
  intro same
  have cut := append_dash_inj (dash_notMem_digits n) (by simp) same
  exact Nat.toDigits_ne_nil cut.2

/-- The sign of a moment in the text of a key. -/
def sign (millis : Int) : List Char := if millis < 0 then ['-'] else []

/-- What stands in a key before the sign of its moment. -/
def front (stem : String) (worker iteration : Nat) : List Char :=
  (stem.toList ++ '-' :: Nat.toDigits 10 worker) ++ '-' :: Nat.toDigits 10 iteration

theorem toList_text (stem : String) (worker iteration : Nat) (millis : Int) :
    (text stem worker iteration millis).toList =
      (front stem worker iteration ++ sign millis) ++ '-' :: Nat.toDigits 10 millis.natAbs := by
  unfold text stamp front sign
  split <;> simp

theorem front_inj {stem stem' : String} {worker worker' iteration iteration' : Nat}
    (same : front stem worker iteration = front stem' worker' iteration') :
    stem = stem' ∧ worker = worker' ∧ iteration = iteration' := by
  obtain ⟨rest, iterations⟩ := append_digits_inj same
  obtain ⟨stems, workers⟩ := append_digits_inj rest
  exact ⟨String.toList_injective stems, workers, iterations⟩

/-- A front and the sign behind it can be told from both together. -/
theorem front_sign_inj {stem stem' : String} {worker worker' iteration iteration' : Nat}
    {millis millis' : Int}
    (same : front stem worker iteration ++ sign millis =
      front stem' worker' iteration' ++ sign millis') :
    front stem worker iteration = front stem' worker' iteration' ∧
      (millis < 0 ↔ millis' < 0) := by
  unfold sign at same
  by_cases negative : millis < 0 <;> by_cases negative' : millis' < 0
  all_goals simp only [negative, negative', if_true, if_false, List.append_nil] at same
  · exact ⟨List.append_cancel_right same, by simp [negative, negative']⟩
  · exact absurd same.symm (append_digits_ne_append_dash _ _ _)
  · exact absurd same (append_digits_ne_append_dash _ _ _)
  · exact ⟨same, by simp [negative, negative']⟩

/-- Keys are equal only if all they are made of is. -/
theorem text_inj {stem stem' : String} {worker worker' iteration iteration' : Nat}
    {millis millis' : Int}
    (same : text stem worker iteration millis = text stem' worker' iteration' millis') :
    stem = stem' ∧ worker = worker' ∧ iteration = iteration' ∧ millis = millis' := by
  have lists := congrArg String.toList same
  rw [toList_text, toList_text] at lists
  obtain ⟨rest, magnitudes⟩ := append_digits_inj lists
  obtain ⟨fronts, signs⟩ := front_sign_inj rest
  obtain ⟨stems, workers, iterations⟩ := front_inj fronts
  exact ⟨stems, workers, iterations, by omega⟩

/-- A key is made in one way only: no other stem, worker, iteration or moment leads to the same text,
though nothing in a stem is escaped and a moment may have a sign. -/
theorem text_injective : Function.Injective fun parts : String × Nat × Nat × Int =>
    text parts.1 parts.2.1 parts.2.2.1 parts.2.2.2 := by
  rintro ⟨stem, worker, iteration, millis⟩ ⟨stem', worker', iteration', millis'⟩ same
  obtain ⟨rfl, rfl, rfl, rfl⟩ := text_inj same
  rfl

example : text "a-1" 2 3 (-4) = "a-1-2-3--4" := by decide

end Cadence.Key
