import Cadence.Quantity

/-!
# Percentiles

Percentiles of an ascending list by linear interpolation between the two closest ranks: the `p`-th
percentile of `n` values lies at rank `p / 100 * (n - 1)`.

Section 10.5 of the specification.
-/

namespace Cadence

/-- A place in an ascending list: between two positions, and how far beyond the first. -/
structure Rank (α : Type) where
  lower : Nat
  upper : Nat
  weight : α

variable {α : Type} [Quantity α]

open Quantity in
/-- The rank of the `p`-th percentile among `count` values (10.5). -/
def Rank.ofPercent (p : α) (count : Nat) : Rank α :=
  let rank := clamp (ofNat 0) (ofNat 100) p / ofNat 100 * ofNat (count - 1)
  let lower := floor rank
  ⟨lower, ceil rank, rank - ofNat lower⟩

/-- The value at a rank of a list. -/
def Rank.interpolate? (rank : Rank α) (sorted : List α) : Option α :=
  match sorted[rank.lower]?, sorted[rank.upper]? with
  | some low, some high => some (low + (high - low) * rank.weight)
  | _, _ => none

/-- The `p`-th percentile of an ascending list; an empty list has none. -/
def percentile (sorted : List α) (p : α) : Option α :=
  (Rank.ofPercent p sorted.length).interpolate? sorted

@[simp] theorem percentile_nil (p : α) : percentile [] p = none := by
  simp [percentile, Rank.interpolate?]

/-- The mean of a list, added up from its front; an empty list has none. -/
def mean (values : List α) : Option α :=
  if values.isEmpty then none
  else some (values.foldl (· + ·) (Quantity.ofNat 0) / Quantity.ofNat values.length)

end Cadence
