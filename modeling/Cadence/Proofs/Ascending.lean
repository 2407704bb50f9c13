import Mathlib.Algebra.BigOperators.Group.List.Basic
import Mathlib.Algebra.Order.BigOperators.Group.List
import Mathlib.Data.List.Perm.Basic

/-!
# Ascending lists

Which values an ascending list has at its positions is settled by counting: the value at position
`k` lies below a bound exactly if more than `k` values do. Counting does not depend on the order of
a list, so values that can be paired in any way come to lie side by side when they are sorted.
-/

namespace Cadence

section Counts

variable {α : Type} [LE α] {values : List α} {below : α → Bool}

/-- More than `k` values of an ascending list lie below exactly if the one at position `k` does. -/
theorem below_getElem_iff (sorted : values.Pairwise (· ≤ ·))
    (lower : ∀ x ∈ values, ∀ y ∈ values, x ≤ y → below y = true → below x = true) {k : ℕ}
    (inside : k < values.length) : below values[k] = true ↔ k + 1 ≤ values.countP below := by
  induction values generalizing k with
  | nil => exact absurd inside (Nat.not_lt_zero k)
  | cons first rest ih =>
    obtain ⟨least, ascending⟩ := List.pairwise_cons.mp sorted
    by_cases kept : below first = true
    · rw [List.countP_cons_of_pos kept]
      cases k with
      | zero => simp [kept]
      | succ k =>
        have lower' : ∀ x ∈ rest, ∀ y ∈ rest, x ≤ y → below y = true → below x = true := by
          intro x first y second
          exact lower x (List.mem_cons_of_mem _ first) y (List.mem_cons_of_mem _ second)
        rw [List.getElem_cons_succ, ih ascending lower']
        omega
    · -- Nothing that comes after a value that does not lie below does so.
      have none : ∀ x ∈ first :: rest, ¬ below x = true := by
        intro x member lies
        rcases List.mem_cons.mp member with rfl | behind
        · exact kept lies
        · exact kept (lower first (List.mem_cons_self ..) x member (least x behind) lies)
      have zero : (first :: rest).countP below = 0 := List.countP_eq_zero.mpr none
      have absent := none _ (List.getElem_mem inside)
      simp [zero, absent]

/-- A condition that is settled by how many values of a list meet it: more than `lower` do if it
holds, and it holds if more than `upper` do. -/
structure ByCount (holds : Prop) (meeting lower upper : ℕ) : Prop where
  needs : holds → lower + 1 ≤ meeting
  enough : upper + 1 ≤ meeting → holds

theorem ByCount.iff {holds : Prop} {meeting k : ℕ} (h : ByCount holds meeting k k) :
    holds ↔ k + 1 ≤ meeting :=
  ⟨h.needs, h.enough⟩

/-- Whether a value between two positions of an ascending list lies below is settled by how many
values do. -/
theorem byCount_of_between (sorted : values.Pairwise (· ≤ ·))
    (lower : ∀ x ∈ values, ∀ y ∈ values, x ≤ y → below y = true → below x = true) {i j : ℕ}
    {low value high : α} (first : values[i]? = some low) (second : values[j]? = some high)
    (least : below value = true → below low = true)
    (most : below high = true → below value = true) :
    ByCount (below value = true) (values.countP below) i j := by
  obtain ⟨inside, rfl⟩ := List.getElem?_eq_some_iff.mp first
  obtain ⟨inside', rfl⟩ := List.getElem?_eq_some_iff.mp second
  constructor
  · intro lies
    exact (below_getElem_iff sorted lower inside).mp (least lies)
  · intro many
    exact most ((below_getElem_iff sorted lower inside').mpr many)

end Counts

/-- Two lists can be paired so that every value of the second is at least its partner. -/
def Dominated {α : Type} [LE α] (first second : List α) : Prop :=
  ∃ pairs : List (α × α), (pairs.map (·.1)).Perm first ∧ (pairs.map (·.2)).Perm second ∧
    ∀ pair ∈ pairs, pair.1 ≤ pair.2

namespace Dominated

section Order

variable {α β : Type} [LE α] [LE β] {first second : List α}

theorem length_eq (h : Dominated first second) : first.length = second.length := by
  obtain ⟨pairs, left, right, -⟩ := h
  rw [← left.length_eq, ← right.length_eq, List.length_map, List.length_map]

/-- The order of either list does not matter. -/
theorem perm (h : Dominated first second) {first' second' : List α} (left : first.Perm first')
    (right : second.Perm second') : Dominated first' second' := by
  obtain ⟨pairs, own, other, below⟩ := h
  exact ⟨pairs, own.trans left, other.trans right, below⟩

theorem map (h : Dominated first second) {f : α → β} (mono : ∀ x y, x ≤ y → f x ≤ f y) :
    Dominated (first.map f) (second.map f) := by
  obtain ⟨pairs, left, right, below⟩ := h
  refine ⟨pairs.map fun pair => (f pair.1, f pair.2), ?_, ?_, ?_⟩
  · simpa only [List.map_map, Function.comp_def] using left.map f
  · simpa only [List.map_map, Function.comp_def] using right.map f
  · intro pair member
    obtain ⟨pair, inside, rfl⟩ := List.mem_map.mp member
    exact mono _ _ (below pair inside)

/-- No more values of the second list than of the first lie below. -/
theorem countP_le (h : Dominated first second) {below : α → Bool}
    (lower : ∀ x y, x ≤ y → below y = true → below x = true) :
    second.countP below ≤ first.countP below := by
  obtain ⟨pairs, left, right, ordered⟩ := h
  rw [← left.countP_eq, ← right.countP_eq, List.countP_map, List.countP_map]
  exact List.countP_mono_left fun pair member => lower _ _ (ordered pair member)

end Order

/-- In ascending order, each value is at least the one at the same position of the first list. -/
theorem getElem_le {α : Type} [LinearOrder α] {first second : List α} (h : Dominated first second)
    (sorted : first.Pairwise (· ≤ ·)) (sorted' : second.Pairwise (· ≤ ·)) {k : ℕ}
    (inside : k < first.length) (inside' : k < second.length) : first[k] ≤ second[k] := by
  have lower (x y : α) (less : x ≤ y) (lies : decide (y ≤ second[k]) = true) :
      decide (x ≤ second[k]) = true :=
    decide_eq_true (less.trans (of_decide_eq_true lies))
  have many : k + 1 ≤ second.countP fun x => decide (x ≤ second[k]) :=
    (below_getElem_iff sorted' (fun x _ y _ => lower x y) inside').mp (by simp)
  have more := many.trans (h.countP_le lower)
  simpa using (below_getElem_iff sorted (fun x _ y _ => lower x y) inside).mpr more

end Dominated

end Cadence
