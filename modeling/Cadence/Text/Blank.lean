/-!
# Blank characters

The Unicode class White_Space and the two ways the library drops it: at the ends of a text, and
everywhere. `trim_eq_self` says which texts trimming leaves alone.
-/

namespace Cadence.Text

/-- A character with the Unicode property White_Space. -/
def isBlank (c : Char) : Bool :=
  let n := c.toNat
  (0x09 ≤ n && n ≤ 0x0d) || n == 0x20 || n == 0x85 || n == 0xa0 || n == 0x1680 ||
    (0x2000 ≤ n && n ≤ 0x200a) || n == 0x2028 || n == 0x2029 || n == 0x202f || n == 0x205f ||
    n == 0x3000

/-- The text without the blanks at its two ends. -/
def trim (s : List Char) : List Char :=
  ((s.dropWhile isBlank).reverse.dropWhile isBlank).reverse

/-- The text without any blank. -/
def withoutBlanks (s : List Char) : List Char :=
  s.filter (fun c => !isBlank c)

/-- A text with no blank at either end. -/
def Trimmed (s : List Char) : Prop :=
  (∀ c, s.head? = some c → isBlank c = false) ∧ (∀ c, s.getLast? = some c → isBlank c = false)

theorem dropWhile_isBlank_eq_self {s : List Char}
    (h : ∀ c, s.head? = some c → isBlank c = false) : s.dropWhile isBlank = s := by
  cases s with
  | nil => rfl
  | cons c r => simp [h c rfl]

/-- Trimming leaves a text without blank ends as it is. -/
theorem trim_eq_self {s : List Char} (h : Trimmed s) : trim s = s := by
  have front := dropWhile_isBlank_eq_self h.1
  have back : s.reverse.dropWhile isBlank = s.reverse :=
    dropWhile_isBlank_eq_self (by simpa using h.2)
  rw [trim, front, back, List.reverse_reverse]

theorem head?_dropWhile_isBlank {s : List Char} {c : Char}
    (h : (s.dropWhile isBlank).head? = some c) : isBlank c = false := by
  have first := List.head?_dropWhile_not isBlank s
  rwa [h] at first

/-- What is trimmed has no blank at either end. -/
theorem trimmed_trim (s : List Char) : Trimmed (trim s) := by
  refine ⟨fun c first => ?_, fun c last => ?_⟩
  · have front : trim s <+: s.dropWhile isBlank := by
      rw [trim, ← List.reverse_suffix, List.reverse_reverse]
      exact List.dropWhile_suffix isBlank
    obtain ⟨rest, whole⟩ := front
    refine head?_dropWhile_isBlank (s := s) ?_
    rw [← whole, List.head?_append, first, Option.some_or]
  · rw [trim, List.getLast?_reverse] at last
    exact head?_dropWhile_isBlank last

@[simp] theorem trim_nil : trim [] = [] := rfl

end Cadence.Text
