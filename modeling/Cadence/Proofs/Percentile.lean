import Cadence.Percentile
import Cadence.Proofs.Ascending
import Cadence.Quantity.Exact

/-!
# Percentiles in exact arithmetic

In fractions, a percentile of an ascending list is the height of a line above its rank: the line
goes through the values of the list, one step apart. So a percentile lies between the two values
that are closest to its rank, and it grows with the rank and with the values.
-/

namespace Cadence

section Line

variable {f g : ℕ → ℚ} {r t : ℚ}

/-- The height above a rank of the line through a sequence of values. -/
def lineAt (f : ℕ → ℚ) (r : ℚ) : ℚ := f ⌊r⌋₊ + (f ⌈r⌉₊ - f ⌊r⌋₊) * (r - ⌊r⌋₊)

@[simp] theorem lineAt_natCast (f : ℕ → ℚ) (k : ℕ) : lineAt f k = f k := by
  simp [lineAt]

/-- A rank lies less than one step beyond a position. -/
theorem weight_bounds (nonneg : 0 ≤ r) : 0 ≤ r - ⌊r⌋₊ ∧ r - ⌊r⌋₊ ≤ 1 := by
  have below := Nat.floor_le nonneg
  have above := Nat.lt_floor_add_one r
  constructor <;> linarith

/-- The line depends on nothing but the values at the two positions closest to the rank. -/
theorem lineAt_congr (low : f ⌊r⌋₊ = g ⌊r⌋₊) (high : f ⌈r⌉₊ = g ⌈r⌉₊) :
    lineAt f r = lineAt g r := by
  rw [lineAt, low, high, lineAt]

/-- Without the first value, the line is the same one step further on. -/
theorem lineAt_add_one (f : ℕ → ℚ) (nonneg : 0 ≤ r) :
    lineAt f (r + 1) = lineAt (fun k => f (k + 1)) r := by
  rw [lineAt, Nat.floor_add_one nonneg, Nat.ceil_add_one nonneg, lineAt]
  push_cast
  rw [add_sub_add_right_eq_sub]

theorem le_lineAt (nonneg : 0 ≤ r) (rises : f ⌊r⌋₊ ≤ f ⌈r⌉₊) : f ⌊r⌋₊ ≤ lineAt f r := by
  have step := mul_nonneg (sub_nonneg.mpr rises) (weight_bounds nonneg).1
  unfold lineAt
  linarith

theorem lineAt_le (nonneg : 0 ≤ r) (rises : f ⌊r⌋₊ ≤ f ⌈r⌉₊) : lineAt f r ≤ f ⌈r⌉₊ := by
  have step := mul_le_of_le_one_right (sub_nonneg.mpr rises) (weight_bounds nonneg).2
  unfold lineAt
  linarith

/-- Higher values make a higher line. -/
theorem lineAt_le_lineAt (nonneg : 0 ≤ r) (low : f ⌊r⌋₊ ≤ g ⌊r⌋₊) (high : f ⌈r⌉₊ ≤ g ⌈r⌉₊) :
    lineAt f r ≤ lineAt g r := by
  obtain ⟨least, most⟩ := weight_bounds nonneg
  obtain ⟨w, weight⟩ : ∃ w, r - ⌊r⌋₊ = w := ⟨_, rfl⟩
  rw [weight] at least most
  have first := mul_le_mul_of_nonneg_right low (sub_nonneg.mpr most)
  have second := mul_le_mul_of_nonneg_right high least
  unfold lineAt
  rw [weight]
  linarith

/-- The line through ascending values ascends. -/
theorem lineAt_mono {n : ℕ} (ascending : MonotoneOn f (Set.Iio n)) (nonneg : 0 ≤ r) (h : r ≤ t)
    (inside : ⌈t⌉₊ < n) : lineAt f r ≤ lineAt f t := by
  have rises {i j : ℕ} (le : i ≤ j) (last : j ≤ ⌈t⌉₊) : f i ≤ f j :=
    ascending (Set.mem_Iio.mpr (by omega)) (Set.mem_Iio.mpr (by omega)) le
  have nonneg' := nonneg.trans h
  have last : ⌈r⌉₊ ≤ ⌈t⌉₊ := Nat.ceil_mono h
  rcases (Nat.floor_mono h).lt_or_eq with apart | same
  · have between : ⌈r⌉₊ ≤ ⌊t⌋₊ := (Nat.ceil_le_floor_add_one r).trans apart
    calc lineAt f r ≤ f ⌈r⌉₊ := lineAt_le nonneg (rises (Nat.floor_le_ceil r) last)
      _ ≤ f ⌊t⌋₊ := rises between (Nat.floor_le_ceil t)
      _ ≤ lineAt f t := le_lineAt nonneg' (rises (Nat.floor_le_ceil t) le_rfl)
  · rcases (Nat.floor_le nonneg).eq_or_lt with whole | beyond
    · -- At a position itself, the line has the height of its value.
      rw [← whole, lineAt_natCast, same]
      exact le_lineAt nonneg' (rises (Nat.floor_le_ceil t) le_rfl)
    · have next {s : ℚ} (floor : ⌊r⌋₊ = ⌊s⌋₊) (further : r ≤ s) : ⌈s⌉₊ = ⌊r⌋₊ + 1 := by
        refine le_antisymm (floor ▸ Nat.ceil_le_floor_add_one s) ?_
        exact Nat.succ_le_of_lt (Nat.lt_ceil.mpr (beyond.trans_le further))
      have step := mul_le_mul_of_nonneg_left (sub_le_sub_right h (⌊r⌋₊ : ℚ))
        (sub_nonneg.mpr (rises (Nat.floor_le_ceil r) last))
      unfold lineAt
      rw [next same h, ← same, ← next rfl le_rfl]
      linarith

end Line

namespace Rank

/-- The rank of a percentile among so many values. -/
def exact (p : ℚ) (count : ℕ) : ℚ := max 0 (min 100 p) / 100 * (count - 1 : ℕ)

variable {p q : ℚ} {count : ℕ}

theorem ofPercent_eq (p : ℚ) (count : ℕ) :
    ofPercent p count =
      ⟨⌊exact p count⌋₊, ⌈exact p count⌉₊, exact p count - ⌊exact p count⌋₊⟩ := by
  rw [← Int.floor_toNat, ← Int.ceil_toNat]
  rfl

theorem exact_eq (least : 0 ≤ p) (most : p ≤ 100) :
    exact p count = p / 100 * (count - 1 : ℕ) := by
  rw [exact, min_eq_right most, max_eq_right least]

theorem exact_of_nonpos (h : p ≤ 0) : exact p count = (0 : ℕ) := by
  rw [exact, max_eq_left ((min_le_right ..).trans h), zero_div, zero_mul, Nat.cast_zero]

theorem exact_of_hundred_le (h : 100 ≤ p) : exact p count = (count - 1 : ℕ) := by
  rw [exact, min_eq_left h, max_eq_right (by norm_num), div_self (by norm_num), one_mul]

theorem exact_mono (h : p ≤ q) : exact p count ≤ exact q count := by
  unfold exact
  gcongr

theorem share_bounds (p : ℚ) : 0 ≤ max 0 (min 100 p) / 100 ∧ max 0 (min 100 p) / 100 ≤ 1 := by
  constructor
  · have := le_max_left 0 (min 100 p)
    positivity
  · rw [div_le_one (by norm_num)]
    exact max_le (by norm_num) (min_le_left ..)

theorem exact_nonneg (p : ℚ) (count : ℕ) : 0 ≤ exact p count :=
  mul_nonneg (share_bounds p).1 (Nat.cast_nonneg _)

/-- No rank lies beyond the last position. -/
theorem exact_le (p : ℚ) (count : ℕ) : exact p count ≤ (count - 1 : ℕ) :=
  mul_le_of_le_one_left (Nat.cast_nonneg _) (share_bounds p).2

/-- One more value moves a rank ahead, by one step at most. -/
theorem exact_succ_bounds (p : ℚ) (some : 0 < count) :
    exact p count ≤ exact p (count + 1) ∧ exact p (count + 1) ≤ exact p count + 1 := by
  obtain ⟨least, most⟩ := share_bounds p
  have apart : exact p (count + 1) = exact p count + max 0 (min 100 p) / 100 := by
    rw [exact, exact, Nat.add_sub_cancel, Nat.cast_pred some]
    ring
  constructor <;> linarith

theorem ceil_exact_lt (p : ℚ) (some : 0 < count) : ⌈exact p count⌉₊ < count := by
  have := Nat.ceil_le.mpr (exact_le p count)
  omega

theorem floor_exact_lt (p : ℚ) (some : 0 < count) : ⌊exact p count⌋₊ < count :=
  (Nat.floor_le_ceil _).trans_lt (ceil_exact_lt p some)

end Rank

section Values

variable {values : List ℚ}

/-- The values of a list by their positions. -/
def heights (values : List ℚ) (k : ℕ) : ℚ := values.getD k 0

theorem getElem?_eq_heights {k : ℕ} (inside : k < values.length) :
    values[k]? = some (heights values k) := by
  simp [heights, List.getD, inside]

theorem heights_eq_getElem {k : ℕ} (inside : k < values.length) : heights values k = values[k] := by
  simp [heights, List.getD, inside]

theorem heights_append {k : ℕ} (inside : k < values.length) (more : List ℚ) :
    heights (values ++ more) k = heights values k := by
  simp [heights, List.getD, List.getElem?_append_left inside]

theorem heights_cons (first : ℚ) (k : ℕ) :
    heights (first :: values) (k + 1) = heights values k := by
  simp [heights]

theorem monotoneOn_heights (sorted : values.Pairwise (· ≤ ·)) :
    MonotoneOn (heights values) (Set.Iio values.length) := by
  intro i first j second le
  rw [heights_eq_getElem first, heights_eq_getElem second]
  rcases le.lt_or_eq with apart | rfl
  · exact List.pairwise_iff_getElem.mp sorted i j first second apart
  · exact le_rfl

/-- A percentile is the height of the line above its rank. -/
theorem percentile_eq_lineAt (some : values ≠ []) (p : ℚ) :
    percentile values p = .some (lineAt (heights values) (Rank.exact p values.length)) := by
  have pos := List.length_pos_iff.mpr some
  rw [percentile, Rank.ofPercent_eq, Rank.interpolate?,
    getElem?_eq_heights (Rank.floor_exact_lt p pos), getElem?_eq_heights (Rank.ceil_exact_lt p pos)]
  rfl

/-- At a rank that is a position, a percentile is the value there. -/
theorem percentile_of_whole {p : ℚ} {k : ℕ} (whole : Rank.exact p values.length = k) :
    percentile values p = values[k]? := by
  by_cases none : values = []
  · rw [none, percentile_nil, List.getElem?_nil]
  · have inside := Rank.floor_exact_lt p (List.length_pos_iff.mpr none)
    rw [whole, Nat.floor_natCast] at inside
    rw [percentile_eq_lineAt none, whole, lineAt_natCast, getElem?_eq_heights inside]

theorem percentile_of_nonpos {p : ℚ} (h : p ≤ 0) : percentile values p = values.head? := by
  rw [percentile_of_whole (Rank.exact_of_nonpos h), List.head?_eq_getElem?]

theorem percentile_of_hundred_le {p : ℚ} (h : 100 ≤ p) :
    percentile values p = values.getLast? := by
  rw [percentile_of_whole (Rank.exact_of_hundred_le h), List.getLast?_eq_getElem?]

/-- Two values that are there, the first of them no larger than the second. -/
def Rises (first second : Option ℚ) : Prop :=
  ∃ v w, first = some v ∧ second = some w ∧ v ≤ w

/-- What percentiles of an ascending list say about it. -/
structure Interpolates (values : List ℚ) : Prop where
  /-- A percentile lies between the values at the two positions closest to its rank. -/
  between : ∀ p : ℚ, 0 ≤ p → p ≤ 100 → ∃ low value high,
    values[⌊p / 100 * (values.length - 1)⌋₊]? = some low ∧ percentile values p = some value ∧
      values[⌈p / 100 * (values.length - 1)⌉₊]? = some high ∧ low ≤ value ∧ value ≤ high
  /-- A higher percentile is no smaller. -/
  mono : ∀ p q : ℚ, p ≤ q → Rises (percentile values p) (percentile values q)
  below : ∀ p : ℚ, p ≤ 0 → percentile values p = values.head?
  above : ∀ p : ℚ, 100 ≤ p → percentile values p = values.getLast?

theorem interpolates_of_sorted (some : values ≠ []) (sorted : values.Pairwise (· ≤ ·)) :
    Interpolates values where
  between p least most := by
    have pos := List.length_pos_iff.mpr some
    have rank : p / 100 * ((values.length : ℚ) - 1) = Rank.exact p values.length := by
      rw [Rank.exact_eq least most, Nat.cast_pred pos]
    have nonneg := Rank.exact_nonneg p values.length
    have rises := monotoneOn_heights sorted (Rank.floor_exact_lt p pos) (Rank.ceil_exact_lt p pos)
      (Nat.floor_le_ceil _)
    rw [rank]
    exact ⟨_, _, _, getElem?_eq_heights (Rank.floor_exact_lt p pos), percentile_eq_lineAt some p,
      getElem?_eq_heights (Rank.ceil_exact_lt p pos), le_lineAt nonneg rises,
      lineAt_le nonneg rises⟩
  mono p q h := by
    have inside := Rank.ceil_exact_lt q (List.length_pos_iff.mpr some)
    exact ⟨_, _, percentile_eq_lineAt some p, percentile_eq_lineAt some q,
      lineAt_mono (monotoneOn_heights sorted) (Rank.exact_nonneg ..) (Rank.exact_mono h) inside⟩
  below _ := percentile_of_nonpos
  above _ := percentile_of_hundred_le

/-- A percentile does not fall when a value is added that is no smaller than the others. -/
theorem rises_percentile_concat {last : ℚ} (some : values ≠ [])
    (sorted : (values ++ [last]).Pairwise (· ≤ ·)) (p : ℚ) :
    Rises (percentile values p) (percentile (values ++ [last]) p) := by
  have pos := List.length_pos_iff.mpr some
  have some' : values ++ [last] ≠ [] := by simp
  have inside := Rank.ceil_exact_lt p (List.length_pos_iff.mpr some')
  refine ⟨_, _, percentile_eq_lineAt some p, percentile_eq_lineAt some' p, ?_⟩
  have further : Rank.exact p values.length ≤ Rank.exact p (values ++ [last]).length := by
    rw [List.length_append, List.length_singleton]
    exact (Rank.exact_succ_bounds p pos).1
  calc lineAt (heights values) (Rank.exact p values.length)
      = lineAt (heights (values ++ [last])) (Rank.exact p values.length) :=
        (lineAt_congr (heights_append (Rank.floor_exact_lt p pos) _)
          (heights_append (Rank.ceil_exact_lt p pos) _)).symm
    _ ≤ lineAt (heights (values ++ [last])) (Rank.exact p (values ++ [last]).length) :=
        lineAt_mono (monotoneOn_heights sorted) (Rank.exact_nonneg ..) further inside

/-- A percentile does not grow when a value is added that is no larger than the others. -/
theorem rises_percentile_cons {first : ℚ} (some : values ≠ [])
    (sorted : (first :: values).Pairwise (· ≤ ·)) (p : ℚ) :
    Rises (percentile (first :: values) p) (percentile values p) := by
  have pos := List.length_pos_iff.mpr some
  have nonneg := Rank.exact_nonneg p values.length
  refine ⟨_, _, percentile_eq_lineAt (by simp) p, percentile_eq_lineAt some p, ?_⟩
  have inside : ⌈Rank.exact p values.length + 1⌉₊ < (first :: values).length := by
    rw [Nat.ceil_add_one nonneg, List.length_cons]
    exact Nat.succ_lt_succ (Rank.ceil_exact_lt p pos)
  -- All values move on by one step, and the rank by no more than that.
  calc lineAt (heights (first :: values)) (Rank.exact p (values.length + 1))
      ≤ lineAt (heights (first :: values)) (Rank.exact p values.length + 1) :=
        lineAt_mono (monotoneOn_heights sorted) (Rank.exact_nonneg ..)
          (Rank.exact_succ_bounds p pos).2 inside
    _ = lineAt (heights values) (Rank.exact p values.length) := by
        rw [lineAt_add_one _ nonneg]
        exact lineAt_congr (heights_cons ..) (heights_cons ..)

/-- A value that lies above a percentile, but among the others, may lower it. -/
example : percentile ([0, 100] : List ℚ) 10 = some 10 ∧
    percentile ([0, 11, 100] : List ℚ) 10 = some (11 / 5) := by
  decide +kernel

theorem mean_eq (some : values ≠ []) : mean values = .some (values.sum / values.length) := by
  have full : values.isEmpty = false := by simpa using some
  rw [mean, full, List.sum_eq_foldl]
  rfl

/-- The mean of an ascending list lies between its first value and its last. -/
theorem mean_between (some : values ≠ []) (sorted : values.Pairwise (· ≤ ·)) :
    Rises values.head? (mean values) ∧ Rises (mean values) values.getLast? := by
  have pos := List.length_pos_iff.mpr some
  have count : (0 : ℚ) < values.length := by exact_mod_cast pos
  have rises := monotoneOn_heights sorted
  have within : ∀ x ∈ values, heights values 0 ≤ x ∧ x ≤ heights values (values.length - 1) := by
    intro x member
    obtain ⟨i, inside, rfl⟩ := List.getElem_of_mem member
    rw [← heights_eq_getElem inside]
    exact ⟨rises pos inside (Nat.zero_le i),
      rises inside (Set.mem_Iio.mpr (by omega)) (by omega)⟩
  have first : values.head? = .some (heights values 0) := by
    rw [List.head?_eq_getElem?, getElem?_eq_heights pos]
  have last : values.getLast? = .some (heights values (values.length - 1)) := by
    rw [List.getLast?_eq_getElem?, getElem?_eq_heights (by omega)]
  refine ⟨⟨_, _, first, mean_eq some, ?_⟩, ⟨_, _, mean_eq some, last, ?_⟩⟩
  · have total := List.card_nsmul_le_sum values _ fun x member => (within x member).1
    rw [le_div_iff₀ count, mul_comm, ← nsmul_eq_mul]
    exact total
  · have total := List.sum_le_card_nsmul values _ fun x member => (within x member).2
    rw [div_le_iff₀ count, mul_comm, ← nsmul_eq_mul]
    exact total

end Values

namespace Dominated

variable {first second : List ℚ} (h : Dominated first second) (some : first ≠ [])

include h some

/-- Percentiles of values that are no smaller are no smaller. -/
theorem percentile_le (sorted : first.Pairwise (· ≤ ·)) (sorted' : second.Pairwise (· ≤ ·))
    (p : ℚ) : Rises (percentile first p) (percentile second p) := by
  have pos := List.length_pos_iff.mpr some
  have some' : second ≠ [] := by rwa [← List.length_pos_iff, ← h.length_eq]
  have higher {k : ℕ} (inside : k < first.length) : heights first k ≤ heights second k := by
    have inside' : k < second.length := h.length_eq ▸ inside
    rw [heights_eq_getElem inside, heights_eq_getElem inside']
    exact h.getElem_le sorted sorted' inside inside'
  refine ⟨_, _, percentile_eq_lineAt some p, percentile_eq_lineAt some' p, ?_⟩
  rw [← h.length_eq]
  exact lineAt_le_lineAt (Rank.exact_nonneg p _) (higher (Rank.floor_exact_lt p pos))
    (higher (Rank.ceil_exact_lt p pos))

end Dominated

end Cadence
