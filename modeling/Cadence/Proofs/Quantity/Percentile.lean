import Cadence.Percentile
import Cadence.Proofs.Quantity.Between
import Cadence.Proofs.Quantity.Share
import Mathlib

/-!
# Percentiles in floating point

The rank of a percentile is rounded, and so is the value at the rank. The rank does not leave the
list: up to the 96th percentile however long the list is, and for the others as long as all its
positions are numbers in floating point. The value lies between those at the two positions that are
closest to the rank.
-/

namespace Cadence

namespace Nearest

/-- A share of a count is rounded to no more than the count, if it leaves room for that. -/
theorem nearest_share_le {share : ℚ} (room : share ≤ 31 / 32) (n : ℕ) :
    nearest (share * nearest n) ≤ n := by
  have counted := nearest_nonneg n
  rcases lt_or_ge n (2 ^ 53) with small | large
  · have digits := nearest_natCast small
    calc nearest (share * nearest n) ≤ nearest (nearest n) :=
          nearest_mono (mul_le_of_le_one_left counted (room.trans (by norm_num)))
      _ = n := by rw [digits, digits]
  · have large : (2 : ℚ) ^ 53 ≤ n := by exact_mod_cast large
    have above : nearest n ≤ n + n / 2 ^ 53 := (nearest_bounds_of_one_le (by linarith)).2
    calc nearest (share * nearest n) ≤ nearest (31 / 32 * (n + n / 2 ^ 53)) := by
          refine nearest_mono ?_
          gcongr
      _ ≤ 31 / 32 * (n + n / 2 ^ 53) + 31 / 32 * (n + n / 2 ^ 53) / 2 ^ 53 :=
          (nearest_bounds_of_one_le (by linarith)).2
      _ ≤ n := by linarith

theorem isNumber_hundred : IsNumber 100 100 := by
  exact_mod_cast isNumber_natCast (by norm_num : 100 < 2 ^ 53)

end Nearest

open Nearest

namespace Rank

section Rounded

open Quantity

/-- The rank of a percentile among so many values, rounded at each step. -/
def rounded (q : ℚ) (count : ℕ) : ℚ := nearest (nearest (q / 100) * nearest (count - 1 : ℕ))

variable {p : Float} {q : ℚ} {count : ℕ}

/-- What lies between 0 and 100 stays where it is. -/
theorem clamp_eq (worth : IsNumber p q) (most : q ≤ 100) : clamp (ofNat 0) (ofNat 100) p = p := by
  show clampFloat 0 100 p = p
  rw [clampFloat, if_neg, if_neg]
  · rw [isNumber_hundred.lt_iff worth]
    exact most.not_gt
  · rw [worth.lt_iff isNumber_zero]
    exact worth.nonneg.not_gt

theorem nearest_hundredth_le (most : q ≤ 100) : nearest (q / 100) ≤ 1 :=
  nearest_le_one (by linarith)

theorem isNumber_clamp (worth : IsNumber p q) (most : q ≤ 100) :
    IsNumber (clamp (ofNat 0) (ofNat 100) p) q := by
  rwa [clamp_eq worth most]

variable (worth : IsNumber (clamp (ofNat 0) (ofNat 100) p) q) (most : q ≤ 100)

include worth most

theorem isNumber_rounded (few : count ≤ 2 ^ 64) :
    IsNumber (clamp (ofNat 0) (ofNat 100) p / ofNat 100 * ofNat (count - 1)) (rounded q count) := by
  have fits : nearest (count - 1 : ℕ) < 2 ^ 1024 := nearest_natCast_lt (by omega)
  have share := nearest_hundredth_le most
  have counted : IsNumber (ofNat (count - 1)) (nearest (count - 1 : ℕ)) := isNumber_ofNat fits
  have hundredth : IsNumber (clamp (ofNat 0) (ofNat 100) p / ofNat 100) (nearest (q / 100)) :=
    worth.div isNumber_hundred (by norm_num) (share.trans_lt (one_lt_pow₀ one_lt_two (by norm_num)))
  refine hundredth.mul counted ?_
  calc nearest (nearest (q / 100) * nearest (count - 1 : ℕ))
      ≤ nearest (nearest (count - 1 : ℕ)) :=
        nearest_mono (mul_le_of_le_one_left counted.nonneg share)
    _ = nearest (count - 1 : ℕ) := counted.nearest_eq
    _ < 2 ^ 1024 := fits

omit worth

/-- A rank lies beyond the last position at most if positions are rounded, and then only for the
highest percentiles. -/
theorem rounded_le (room : q ≤ 96 ∨ count ≤ 2 ^ 53) : rounded q count ≤ (count - 1 : ℕ) := by
  rcases room with low | few
  · refine nearest_share_le ?_ (count - 1)
    calc nearest (q / 100) ≤ nearest (31 / 32) := nearest_mono (by linarith)
      _ = 31 / 32 :=
        nearest_eq_of_digits 31 (-5) (by norm_num) (by norm_num) (by norm_num) (by norm_num)
  · have digits : nearest (count - 1 : ℕ) = (count - 1 : ℕ) := nearest_natCast (by omega)
    have share := nearest_hundredth_le most
    calc rounded q count ≤ nearest (nearest (count - 1 : ℕ)) :=
          nearest_mono (mul_le_of_le_one_left (nearest_nonneg _) share)
      _ = (count - 1 : ℕ) := by rw [digits, digits]

end Rounded

/-- Rounding a rank twice moves it by a share of the steps in the list at most. -/
theorem abs_rounded_sub_le {q : ℚ} (least : 0 ≤ q) (most : q ≤ 100) {count : ℕ} (some : 0 < count)
    (few : count ≤ 2 ^ 53) :
    |rounded q count - q / 100 * (count - 1)| ≤ (count - 1) / 2 ^ 52 := by
  rcases Nat.eq_or_lt_of_le some with one | more
  · rw [← one]
    simp [rounded]
  have steps : (1 : ℚ) ≤ (count - 1 : ℕ) := by exact_mod_cast (by omega : 1 ≤ count - 1)
  have digits : nearest (count - 1 : ℕ) = (count - 1 : ℕ) := nearest_natCast (by omega)
  have share := nearest_hundredth_le most
  have first := abs_nearest_sub_le_of_le (by positivity : 0 ≤ q / 100)
    (by linarith : q / 100 ≤ 1) le_rfl
  have second := abs_nearest_sub_le_of_le
    (mul_nonneg (nearest_nonneg (q / 100)) (by linarith : (0 : ℚ) ≤ (count - 1 : ℕ)))
    (mul_le_of_le_one_left (by linarith) share) steps
  rw [← Nat.cast_pred some, rounded, digits]
  generalize ((count - 1 : ℕ) : ℚ) = m at *
  calc |nearest (nearest (q / 100) * m) - q / 100 * m|
      ≤ |nearest (nearest (q / 100) * m) - nearest (q / 100) * m| +
        |nearest (q / 100) * m - q / 100 * m| := abs_sub_le ..
    _ = |nearest (nearest (q / 100) * m) - nearest (q / 100) * m| +
        |nearest (q / 100) - q / 100| * m := by
      rw [← sub_mul, abs_mul, abs_of_pos (by linarith : 0 < m)]
    _ ≤ m / 2 ^ 53 + 1 / 2 ^ 53 * m := by gcongr
    _ = m / 2 ^ 52 := by ring

/-- A rank that lies within a list of so many values. -/
structure Within (rank : Rank Float) (count : Nat) : Prop where
  ordered : rank.lower ≤ rank.upper
  inside : rank.upper < count
  weight : ∃ u, IsNumber rank.weight u ∧ u < 1

section Within

variable {p : Float} {q : ℚ} (worth : IsNumber (Quantity.clamp (Quantity.ofNat 0)
  (Quantity.ofNat 100) p) q) (most : q ≤ 100) {count : Nat} (some : 0 < count)
  (few : count ≤ 2 ^ 64) (room : q ≤ 96 ∨ count ≤ 2 ^ 53)

include worth most few room

/-- The positions closest to a rank are those of the rounded rank. -/
theorem ofPercent_positions : (ofPercent p count).lower = ⌊rounded q count⌋₊ ∧
    (ofPercent p count).upper = ⌈rounded q count⌉₊ := by
  have rank := isNumber_rounded worth most few
  have small : rounded q count < 2 ^ 64 :=
    (rounded_le most room).trans_lt (by exact_mod_cast (by omega : count - 1 < 2 ^ 64))
  exact ⟨rank.floorFloat_eq small, rank.ceilFloat_eq small⟩

include some

theorem within_ofPercent : (ofPercent p count).Within count := by
  obtain ⟨lower, upper⟩ := ofPercent_positions worth most few room
  have rank := isNumber_rounded worth most few
  have below := rounded_le most room
  have small : rounded q count < 2 ^ 64 :=
    below.trans_lt (by exact_mod_cast (by omega : count - 1 < 2 ^ 64))
  have beyond : rounded q count - ⌊rounded q count⌋₊ < 1 := by
    linarith [Nat.lt_floor_add_one (rounded q count)]
  refine ⟨?_, ?_, rounded q count - ⌊rounded q count⌋₊, ?_, beyond⟩
  · rw [lower, upper]
    exact Nat.floor_le_ceil _
  · have : ⌈rounded q count⌉₊ ≤ count - 1 := Nat.ceil_le.mpr below
    rw [upper]
    omega
  · rw [← rank.nearest_fract]
    show IsNumber (_ - Float.ofNat (ofPercent p count).lower) _
    rw [lower]
    refine rank.sub (rank.floor small) (Nat.floor_le rank.nonneg) ?_
    rw [rank.nearest_fract]
    exact beyond.trans (one_lt_pow₀ one_lt_two (by norm_num))

end Within

section Long

theorem floorFloat_lt (x : Float) : Quantity.floorFloat x < 2 ^ 64 := x.toUInt64.toNat_lt

theorem ceilFloat_bounds (x : Float) : Quantity.floorFloat x ≤ Quantity.ceilFloat x ∧
    Quantity.ceilFloat x ≤ Quantity.floorFloat x + 1 := by
  unfold Quantity.ceilFloat
  dsimp only
  split_ifs <;> omega

variable {p : Float} {q : ℚ}

/-- Up to the 96th percentile, a rank does not leave the list, however long it is: where there are
positions beyond 64 binary digits, a rank is cut off before them. -/
theorem inside_ofPercent_of_low (worth : IsNumber p q) (low : q ≤ 96) {count : Nat}
    (some : 0 < count) : (ofPercent p count).lower ≤ (ofPercent p count).upper ∧
      (ofPercent p count).upper < count := by
  rcases le_or_gt count (2 ^ 64) with few | many
  · have most : q ≤ 100 := by linarith
    have within := within_ofPercent (isNumber_clamp worth most) most some few (Or.inl low)
    exact ⟨within.ordered, within.inside⟩
  · have cut : (ofPercent p count).lower < 2 ^ 64 := floorFloat_lt _
    obtain ⟨ordered, next⟩ : (ofPercent p count).lower ≤ (ofPercent p count).upper ∧
        (ofPercent p count).upper ≤ (ofPercent p count).lower + 1 := ceilFloat_bounds _
    exact ⟨ordered, by omega⟩

/-- A list has a percentile if the rank does not leave it, unless it is empty. -/
theorem isSome_of_inside {values : List Float} (inside : 0 < values.length →
    (ofPercent p values.length).lower ≤ (ofPercent p values.length).upper ∧
      (ofPercent p values.length).upper < values.length) :
    (percentile values p).isSome = true ↔ values ≠ [] := by
  constructor
  · rintro reduced rfl
    simp [percentile, interpolate?] at reduced
  · intro some
    obtain ⟨ordered, inside⟩ := inside (List.length_pos_iff.mpr some)
    rw [percentile, interpolate?, List.getElem?_eq_getElem (ordered.trans_lt inside),
      List.getElem?_eq_getElem inside]
    rfl

/-- However long a list is, it has the percentiles up to the 96th, unless it is empty. -/
theorem isSome_percentile_of_low (worth : IsNumber p q) (low : q ≤ 96) (values : List Float) :
    (percentile values p).isSome = true ↔ values ≠ [] :=
  isSome_of_inside (inside_ofPercent_of_low worth low)

end Long

section Blank

open Float.Model hiding pack unpack
open Float.Model.UnpackedFloat

/-- The zero below zero. -/
def IsLowerZero (x : Float) : Prop := x.toModel.unpack = .zero .negative

variable {x y : Float} {w : ℚ}

theorem unpack_zero : (0 : Float).toModel.unpack = .zero .positive :=
  Denotes.unique isNumber_zero (rfl : Denotes (.zero .positive) 0)

theorem isLowerZero_pack {u : UnpackedFloat} (h : u = .zero .negative) :
    IsLowerZero (.ofModel (.pack u)) := by
  rw [h]
  rfl

theorem IsLowerZero.div (h : IsLowerZero x) (h' : IsNumber y w) (pos : 0 < w) :
    IsLowerZero (x / y) := by
  refine isLowerZero_pack (u := UnpackedFloat.div .binary64 x.toModel.unpack y.toModel.unpack) ?_
  unfold IsNumber at h'
  rw [h]
  generalize y.toModel.unpack = u at h'
  match u, h' with
  | .zero .positive, h' => exact absurd h' pos.ne'
  | .finite .positive .., _ => rfl

theorem IsLowerZero.mul (h : IsLowerZero x) (h' : IsNumber y w) : IsLowerZero (x * y) := by
  refine isLowerZero_pack (u := UnpackedFloat.mul .binary64 x.toModel.unpack y.toModel.unpack) ?_
  unfold IsNumber at h'
  rw [h]
  generalize y.toModel.unpack = u at h'
  match u, h' with
  | .zero .positive, _ | .finite .positive .., _ => rfl

theorem IsLowerZero.mul_left (h : IsLowerZero x) (h' : IsNumber y w) : IsLowerZero (y * x) := by
  refine isLowerZero_pack (u := UnpackedFloat.mul .binary64 y.toModel.unpack x.toModel.unpack) ?_
  unfold IsNumber at h'
  rw [h]
  generalize y.toModel.unpack = u at h'
  match u, h' with
  | .zero .positive, _ | .finite .positive .., _ => rfl

theorem IsLowerZero.sub_zero (h : IsLowerZero x) : IsLowerZero (x - 0) := by
  have low : UnpackedFloat.sub .binary64 x.toModel.unpack (0 : Float).toModel.unpack =
      .zero .negative := by
    rw [h, unpack_zero]
    rfl
  exact isLowerZero_pack low

theorem IsLowerZero.ratOfFloat_eq (h : IsLowerZero x) : Quantity.ratOfFloat x = 0 := by
  rw [Quantity.ratOfFloat, h]

/-- Adding it changes nothing. -/
theorem IsLowerZero.add_left (h : IsLowerZero x) (h' : IsNumber y w) : y + x = y := by
  have same : UnpackedFloat.add .binary64 y.toModel.unpack x.toModel.unpack = y.toModel.unpack := by
    unfold IsNumber at h'
    rw [h]
    generalize y.toModel.unpack = u at h'
    match u, h' with
    | .zero .positive, _ | .finite .positive .., _ => rfl
  show Float.ofModel (.pack (UnpackedFloat.add .binary64 y.toModel.unpack x.toModel.unpack)) = y
  rw [same, ofModel_pack_unpack]

/-- What is no number, and the zero below zero. -/
def Blank (x : Float) : Prop :=
  x.toModel.unpack = .notANumber ∨ x.toModel.unpack = .zero .negative

theorem blank_pack {u : UnpackedFloat} (h : u = .notANumber) : Blank (.ofModel (.pack u)) := by
  rw [h]
  exact Or.inl rfl

theorem Blank.div (h : Blank x) (h' : IsNumber y w) (pos : 0 < w) : Blank (x / y) := by
  rcases h with none | zero
  · refine blank_pack (u := UnpackedFloat.div .binary64 x.toModel.unpack y.toModel.unpack) ?_
    rw [none]
    cases y.toModel.unpack <;> rfl
  · exact Or.inr (IsLowerZero.div zero h' pos)

theorem Blank.mul (h : Blank x) (h' : IsNumber y w) : Blank (x * y) := by
  rcases h with none | zero
  · refine blank_pack (u := UnpackedFloat.mul .binary64 x.toModel.unpack y.toModel.unpack) ?_
    rw [none]
    cases y.toModel.unpack <;> rfl
  · exact Or.inr (IsLowerZero.mul zero h')

/-- What is blank is rounded to the first position. -/
theorem Blank.positions (h : Blank x) :
    Quantity.floorFloat x = 0 ∧ Quantity.ceilFloat x = 0 := by
  have floor : Quantity.floorFloat x = 0 := by
    show (UnpackedFloat.toUInt64 x.toModel.unpack).toNat = 0
    rcases h with none | zero
    · rw [none]
      rfl
    · rw [zero]
      rfl
  refine ⟨floor, ?_⟩
  have least : ¬ (0 : Float) < x := by
    show ¬ decide ((0 : Float).toModel.unpack.compare x.toModel.unpack == some .lt) = true
    rw [unpack_zero]
    rcases h with none | zero
    · rw [none]
      decide
    · rw [zero]
      decide
  unfold Quantity.ceilFloat
  dsimp only
  rw [floor]
  exact if_neg least

/-- What is neither below 0 nor above 100 is a number between them, or blank. -/
theorem isNumber_or_blank {p : Float} (low : ¬ p < 0) (high : ¬ 100 < p) :
    (∃ q, IsNumber p q ∧ q ≤ 100) ∨ Blank p := by
  have low : ¬ decide (p.toModel.unpack.compare (0 : Float).toModel.unpack == some .lt) = true :=
    low
  have hundred : Denotes (100 : Float).toModel.unpack 100 := isNumber_hundred
  have high' :
      ¬ decide ((100 : Float).toModel.unpack.compare p.toModel.unpack == some .lt) = true := high
  have kept {m : ℕ} {e : ℤ} {pos : 0 < m} (same : p.toModel.unpack = .finite .positive m e pos) :
      IsNumber p (m * 2 ^ e) := by
    unfold IsNumber
    rw [same]
    exact ⟨(canonical_of_unpack same).1, rfl⟩
  unfold Blank
  rw [unpack_zero] at low
  generalize (100 : Float).toModel.unpack = u at hundred high'
  cases value : p.toModel.unpack with
  | notANumber => exact Or.inr (Or.inl rfl)
  | infinity sign =>
    rw [value] at low high'
    cases sign with
    | negative => exact absurd rfl low
    | positive =>
      match u, hundred with
      | .zero .positive, hundred => exact absurd (show (100 : ℚ) = 0 from hundred) (by norm_num)
      | .finite .positive n f _, _ => exact absurd rfl high'
  | zero sign =>
    cases sign with
    | negative => exact Or.inr (Or.inr rfl)
    | positive =>
      refine Or.inl ⟨0, ?_, by norm_num⟩
      unfold IsNumber
      rw [value]
      exact rfl
  | finite sign m e pos =>
    rw [value] at low
    cases sign with
    | negative => exact absurd rfl low
    | positive =>
      refine Or.inl ⟨m * 2 ^ e, kept value, ?_⟩
      rw [isNumber_hundred.lt_iff (kept value)] at high
      exact not_lt.mp high

/-- What is brought between 0 and 100 is a number there, or blank. -/
theorem clamp_cases (p : Float) : (∃ q, IsNumber (Quantity.clampFloat 0 100 p) q ∧ q ≤ 100) ∨
    Blank (Quantity.clampFloat 0 100 p) := by
  unfold Quantity.clampFloat
  split_ifs with low high
  · exact Or.inl ⟨0, isNumber_zero, by norm_num⟩
  · exact Or.inl ⟨100, isNumber_hundred, le_rfl⟩
  · exact isNumber_or_blank low high

/-- Whatever it is a percentile of, or whether it is one at all, a rank does not leave the list. -/
theorem inside_ofPercent (p : Float) {count : Nat} (some : 0 < count) (few : count ≤ 2 ^ 53) :
    (ofPercent p count).lower ≤ (ofPercent p count).upper ∧
      (ofPercent p count).upper < count := by
  have large : count ≤ 2 ^ 64 := few.trans (by norm_num)
  rcases clamp_cases p with ⟨q, worth, most⟩ | blank
  · have within := within_ofPercent worth most some large (Or.inr few)
    exact ⟨within.ordered, within.inside⟩
  · have counted := isNumber_ofNat (nearest_natCast_lt (by omega : count - 1 < 2 ^ 128))
    have rank := (blank.div isNumber_hundred (by norm_num)).mul counted
    have lower : (ofPercent p count).lower = 0 := rank.positions.1
    have upper : (ofPercent p count).upper = 0 := rank.positions.2
    rw [lower, upper]
    exact ⟨le_rfl, some⟩

/-- A list that is not too long has every percentile, unless it is empty. -/
theorem isSome_percentile (p : Float) {values : List Float} (few : values.length ≤ 2 ^ 53) :
    (percentile values p).isSome = true ↔ values ≠ [] :=
  isSome_of_inside fun some => inside_ofPercent p some few

theorem IsLowerZero.clamp_eq (h : IsLowerZero x) : Quantity.clampFloat 0 100 x = x := by
  have low : ¬ x < 0 := by
    show ¬ decide (x.toModel.unpack.compare (0 : Float).toModel.unpack == some .lt) = true
    rw [h, unpack_zero]
    decide
  have high : ¬ 100 < x := by
    show ¬ decide ((100 : Float).toModel.unpack.compare x.toModel.unpack == some .lt) = true
    have hundred : Denotes (100 : Float).toModel.unpack 100 := isNumber_hundred
    rw [h]
    generalize (100 : Float).toModel.unpack = u at hundred
    match u, hundred with
    | .zero .positive, _ | .finite .positive .., _ => simp [UnpackedFloat.compare]
  rw [Quantity.clampFloat, if_neg low, if_neg high]

/-- The zero below zero has the first position as its rank. -/
theorem IsLowerZero.positions {p : Float} (h : IsLowerZero p) {count : Nat}
    (few : count ≤ 2 ^ 53) : (ofPercent p count).lower = 0 ∧ (ofPercent p count).upper = 0 ∧
      IsLowerZero (ofPercent p count).weight := by
  have counted := isNumber_ofNat (nearest_natCast_lt (by omega : count - 1 < 2 ^ 128))
  have rank : IsLowerZero (Quantity.clampFloat 0 100 p / 100 * Float.ofNat (count - 1)) := by
    rw [h.clamp_eq]
    exact (h.div isNumber_hundred (by norm_num)).mul counted
  obtain ⟨first, last⟩ := Blank.positions (.inr rank)
  have lower : (ofPercent p count).lower = 0 := first
  refine ⟨lower, last, ?_⟩
  show IsLowerZero (_ - Float.ofNat (ofPercent p count).lower)
  rw [lower]
  exact rank.sub_zero

/-- The zero below zero stands for the lowest percentile as well. -/
theorem IsLowerZero.percentile_eq {p : Float} (h : IsLowerZero p) {values : List Float}
    (few : values.length ≤ 2 ^ 53) (numbers : ∀ x ∈ values, ∃ v, IsNumber x v) :
    percentile values p = values[0]? := by
  by_cases none : values = []
  · rw [none, percentile_nil, List.getElem?_nil]
  have some : 0 < values.length := List.length_pos_iff.mpr none
  obtain ⟨first, last, weight⟩ := h.positions few
  obtain ⟨v, number⟩ := numbers _ (List.getElem_mem some)
  have gap : IsNumber (values[0] - values[0]) 0 := by
    have := number.sub number le_rfl (nearest_sub_lt number number)
    rwa [sub_self, nearest_zero] at this
  rw [percentile, interpolate?, first, last, List.getElem?_eq_getElem some]
  exact congrArg Option.some ((weight.mul_left gap).add_left number)

/-- No number is above all numbers. -/
theorem infinity_not_le {u : UnpackedFloat} {v : ℚ} (worth : Denotes u v) :
    ((UnpackedFloat.infinity .positive).compare u).any (·.isLE) = false := by
  cases u with
  | notANumber => rfl
  | infinity sign => exact worth.elim
  | zero sign => cases sign <;> rfl
  | finite sign m e pos => cases sign <;> rfl

/-- What lies between 0 and 100 is a number, or the zero below zero. -/
theorem isNumber_or_isLowerZero {p : Float} (least : 0 ≤ p) (most : p ≤ 100) :
    (∃ q, IsNumber p q ∧ q ≤ 100) ∨ IsLowerZero p := by
  have above : ((0 : Float).toModel.unpack.compare p.toModel.unpack).any (·.isLE) :=
    of_decide_eq_true least
  have below : (p.toModel.unpack.compare (100 : Float).toModel.unpack).any (·.isLE) :=
    of_decide_eq_true most
  have hundred : Denotes (100 : Float).toModel.unpack 100 := isNumber_hundred
  have kept {v : ℚ} (worth : IsNumber p v) : ∃ q, IsNumber p q ∧ q ≤ 100 :=
    ⟨v, worth, (worth.le_iff isNumber_hundred).mp most⟩
  rw [unpack_zero] at above
  generalize (100 : Float).toModel.unpack = u at hundred below
  cases value : p.toModel.unpack with
  | notANumber => simp [value, UnpackedFloat.compare] at above
  | infinity sign =>
    cases sign with
    | negative => simp [value, UnpackedFloat.compare] at above
    | positive =>
      rw [value, infinity_not_le hundred] at below
      cases below
  | zero sign =>
    cases sign with
    | negative => exact Or.inr value
    | positive => exact Or.inl (kept (v := 0) (by rw [IsNumber, value]; exact rfl))
  | finite sign m e pos =>
    cases sign with
    | negative => simp [value, UnpackedFloat.compare] at above
    | positive =>
      refine Or.inl (kept (v := m * 2 ^ e) ?_)
      rw [IsNumber, value]
      exact ⟨(canonical_of_unpack value).1, rfl⟩

theorem ratOfFloat_bounds {p : Float} (least : 0 ≤ p) (most : p ≤ 100) :
    0 ≤ Quantity.ratOfFloat p ∧ Quantity.ratOfFloat p ≤ 100 := by
  rcases isNumber_or_isLowerZero least most with ⟨q, worth, high⟩ | zero
  · rw [worth.ratOfFloat_eq]
    exact ⟨worth.nonneg, high⟩
  · rw [zero.ratOfFloat_eq]
    norm_num

/-- The positions of a percentile are those next to its rounded rank. -/
theorem ofPercent_rounded {p : Float} (least : 0 ≤ p) (most : p ≤ 100) {count : ℕ}
    (few : count ≤ 2 ^ 53) :
    (ofPercent p count).lower = ⌊rounded (Quantity.ofFloat p) count⌋₊ ∧
      (ofPercent p count).upper = ⌈rounded (Quantity.ofFloat p) count⌉₊ := by
  rcases isNumber_or_isLowerZero least most with ⟨q, worth, high⟩ | zero
  · have same : (Quantity.ofFloat p : ℚ) = q := worth.ratOfFloat_eq
    rw [same]
    exact ofPercent_positions (isNumber_clamp worth high) high (few.trans (by norm_num)) (.inr few)
  · have same : (Quantity.ofFloat p : ℚ) = 0 := zero.ratOfFloat_eq
    obtain ⟨lower, upper, -⟩ := zero.positions few
    rw [same, lower, upper]
    simp [rounded]

end Blank

section Value

variable {rank : Rank Float} {values : List Float} (h : rank.Within values.length)
  (sorted : values.Pairwise (· ≤ ·)) (numbers : ∀ x ∈ values, ∃ v, IsNumber x v)

include h sorted numbers

/-- The value at a rank within an ascending list of numbers lies between those at the two positions
that are closest to the rank. -/
theorem Within.interpolate? : ∃ low value high v b w, values[rank.lower]? = some low ∧
    rank.interpolate? values = some value ∧ values[rank.upper]? = some high ∧
    IsNumber low v ∧ IsNumber value b ∧ IsNumber high w ∧ v ≤ b ∧ b ≤ w := by
  have lower := h.ordered.trans_lt h.inside
  obtain ⟨v, lowest⟩ := numbers _ (List.getElem_mem lower)
  obtain ⟨w, highest⟩ := numbers _ (List.getElem_mem h.inside)
  obtain ⟨u, weight, proper⟩ := h.weight
  have ascending : v ≤ w := by
    rw [← lowest.le_iff highest]
    rcases h.ordered.lt_or_eq with apart | same
    · exact List.pairwise_iff_getElem.mp sorted _ _ lower h.inside apart
    · simp only [← same]
      exact (lowest.le_iff lowest).mpr le_rfl
  obtain ⟨b, value, least, most⟩ := lowest.between highest ascending weight proper
  refine ⟨_, _, _, v, b, w, List.getElem?_eq_getElem lower, ?_, List.getElem?_eq_getElem h.inside,
    lowest, value, highest, least, most⟩
  rw [Rank.interpolate?, List.getElem?_eq_getElem lower, List.getElem?_eq_getElem h.inside]

/-- At a position itself, the value is the one of the list. -/
theorem Within.interpolate?_of_whole (whole : rank.lower = rank.upper) :
    rank.interpolate? values = values[rank.lower]? := by
  obtain ⟨low, value, high, v, b, w, first, reduced, second, lowest, number, highest, least,
    most⟩ := h.interpolate? sorted numbers
  rw [← whole, first] at second
  obtain rfl : low = high := Option.some.inj second
  obtain rfl : v = b := le_antisymm least
    (most.trans ((highest.le_iff lowest).mp ((lowest.le_iff lowest).mpr le_rfl)))
  rw [first, reduced, lowest.unique number]

end Value

/-- If the rounded rank is a position, the percentile is the value there. -/
theorem percentile_of_rounded {values : List Float} {p : Float} {q : ℚ} (worth : IsNumber p q)
    (most : q ≤ 100) (few : values.length ≤ 2 ^ 53) (sorted : values.Pairwise (· ≤ ·))
    (numbers : ∀ x ∈ values, ∃ v, IsNumber x v) {k : ℕ} (whole : rounded q values.length = k) :
    percentile values p = values[k]? := by
  by_cases none : values = []
  · rw [none, percentile_nil, List.getElem?_nil]
  · have large : values.length ≤ 2 ^ 64 := few.trans (by norm_num)
    have clamped := isNumber_clamp worth most
    obtain ⟨lower, upper⟩ := ofPercent_positions clamped most large (Or.inr few)
    have within := within_ofPercent clamped most (List.length_pos_iff.mpr none) large (Or.inr few)
    rw [whole, Nat.floor_natCast] at lower
    rw [whole, Nat.ceil_natCast] at upper
    rw [percentile, within.interpolate?_of_whole sorted numbers (lower.trans upper.symm), lower]

theorem rounded_zero (count : ℕ) : rounded 0 count = (0 : ℕ) := by
  simp [rounded]

theorem rounded_hundred {count : ℕ} (few : count ≤ 2 ^ 53) :
    rounded 100 count = (count - 1 : ℕ) := by
  have one : nearest (100 / 100) = 1 := by
    rw [div_self (by norm_num), ← Nat.cast_one, nearest_natCast (by norm_num)]
  rcases Nat.eq_zero_or_pos count with rfl | some
  · simp [rounded]
  · have digits : nearest (count - 1 : ℕ) = (count - 1 : ℕ) := nearest_natCast (by omega)
    rw [rounded, one, one_mul, digits, digits]

end Rank

/-- Up to the 96th percentile, an ascending list of numbers that are not too many has one, and it is
a number that keeps every bound of the list. -/
theorem percentile_le {values : List Float} {p : Float} {q bound : ℚ} (worth : IsNumber p q)
    (most : q ≤ 96) (some : values ≠ []) (few : values.length < 2 ^ 64)
    (sorted : values.Pairwise (· ≤ ·)) (numbers : ∀ x ∈ values, ∃ v, IsNumber x v ∧ v ≤ bound) :
    ∃ x v, percentile values p = .some x ∧ IsNumber x v ∧ v ≤ bound := by
  have high : q ≤ 100 := by linarith
  have within := Rank.within_ofPercent (Rank.isNumber_clamp worth high) high
    (List.length_pos_iff.mpr some) few.le (Or.inl most)
  obtain ⟨low, value, top, v, b, w, -, reduced, second, -, number, highest, -, below⟩ :=
    within.interpolate? sorted fun x member => (numbers x member).imp fun _ => And.left
  obtain ⟨w', highest', bounded⟩ := numbers top (List.mem_of_getElem? second)
  have same : w ≤ w' := (highest.le_iff highest').mp ((highest.le_iff highest).mpr le_rfl)
  exact ⟨value, b, reduced, number, (below.trans same).trans bounded⟩

/-- A list that is not too long has a percentile for whatever is asked, be it a number or not,
unless the list is empty: the two positions closest to the rank are in their order and within the
list, and the percentile is reduced from the values there. -/
theorem percentile_within_list (p : Float) {values : List Float} (few : values.length ≤ 2 ^ 53) :
    (values ≠ [] →
      let rank := Rank.ofPercent p values.length
      rank.lower ≤ rank.upper ∧ rank.upper ≤ values.length - 1 ∧
      ∃ low high, values[rank.lower]? = some low ∧ values[rank.upper]? = some high ∧
        percentile values p = some (low + (high - low) * rank.weight)) ∧
    (percentile values p = none ↔ values = []) := by
  constructor
  · intro nonempty rank
    obtain ⟨ordered, inside⟩ := Rank.inside_ofPercent p (List.length_pos_iff.mpr nonempty) few
    have lower := List.getElem?_eq_getElem (ordered.trans_lt inside)
    have upper := List.getElem?_eq_getElem inside
    refine ⟨ordered, Nat.le_sub_one_of_lt inside, _, _, lower, upper, ?_⟩
    rw [percentile, Rank.interpolate?, lower, upper]
  · rw [← Option.not_isSome_iff_eq_none, Rank.isSome_percentile p few, not_not]

/-- What is no number is taken for the lowest percentile, and what is infinite for the highest. -/
theorem percentile_within_list_extreme :
    ([1, 2, 4] : List Float).length ≤ 2 ^ 53 ∧
    (Rank.ofPercent (0 / 0 : Float) 3).upper = 0 ∧ (Rank.ofPercent (1 / 0 : Float) 3).lower = 2 ∧
    (∃ low high, ([1, 2, 4] : List Float)[(Rank.ofPercent (0 / 0 : Float) 3).lower]? = some low ∧
      ([1, 2, 4] : List Float)[(Rank.ofPercent (0 / 0 : Float) 3).upper]? = some high ∧
      percentile [1, 2, 4] (0 / 0) =
        some (low + (high - low) * (Rank.ofPercent (0 / 0 : Float) 3).weight)) ∧
    percentile [1, 2, 4] (1 / 0 : Float) ≠ none := by
  have few : ([1, 2, 4] : List Float).length ≤ 2 ^ 53 := by norm_num
  obtain ⟨-, -, reduced⟩ := (percentile_within_list (0 / 0) few).1 (List.cons_ne_nil _ _)
  have some := (percentile_within_list (1 / 0) few).2.not.mpr (List.cons_ne_nil _ _)
  exact ⟨few, by decide +kernel, by decide +kernel, reduced, some⟩

end Cadence
