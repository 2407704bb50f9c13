import Mathlib.Algebra.Order.Field.Power
import Mathlib.Algebra.Order.Floor.Semiring
import Mathlib.Data.Int.Log
import Mathlib.Data.Rat.Floor
import Mathlib.Tactic.FieldSimp
import Mathlib.Tactic.Linarith
import Mathlib.Tactic.NormNum
import Mathlib.Tactic.Positivity

/-!
# The nearest number in floating point

Numbers in floating point are multiples of a power of two with fewer than 54 binary digits.
`nearest` gives the one that is closest to a fraction, without regard to how large it is; of two
that are equally close, it gives the one whose last digit is zero. Rounding keeps order, and leaves
alone what needs no rounding.
-/

namespace Cadence.Nearest

/-- The natural number closest to a fraction; a half goes to the even neighbour. -/
def toEven (q : ℚ) : ℕ :=
  if q - ⌊q⌋₊ < 1 / 2 then ⌊q⌋₊
  else if 1 / 2 < q - ⌊q⌋₊ then ⌊q⌋₊ + 1
  else ⌊q⌋₊ + ⌊q⌋₊ % 2

theorem floor_le_toEven (q : ℚ) : ⌊q⌋₊ ≤ toEven q := by
  unfold toEven
  split_ifs <;> omega

theorem toEven_le_floor_succ (q : ℚ) : toEven q ≤ ⌊q⌋₊ + 1 := by
  unfold toEven
  split_ifs <;> omega

/-- The fraction beyond a natural number decides. -/
theorem toEven_add (n : ℕ) {r : ℚ} (nonneg : 0 ≤ r) (below : r < 1) :
    toEven (n + r) = if r < 1 / 2 then n else if 1 / 2 < r then n + 1 else n + n % 2 := by
  have floor : ⌊(n : ℚ) + r⌋₊ = n := by
    rw [Nat.floor_eq_iff (by positivity)]
    constructor <;> linarith
  rw [toEven, floor, add_sub_cancel_left]

/-- What lies within half a step of a natural number goes to it, and what lies at the very half if
the number is even. -/
theorem toEven_eq_of_near {n : ℕ} {q : ℚ} (nonneg : 0 ≤ q) (above : n - 1 / 2 ≤ q)
    (below : q ≤ n + 1 / 2) (odd : n % 2 = 1 → n - 1 / 2 < q ∧ q < n + 1 / 2) : toEven q = n := by
  rcases le_or_gt (n : ℚ) q with beyond | before
  · obtain ⟨r, rfl⟩ : ∃ r, q = n + r := ⟨q - n, by ring⟩
    rw [toEven_add n (by linarith) (by linarith)]
    split_ifs with less more
    · rfl
    · linarith
    · rcases Nat.mod_two_eq_zero_or_one n with even | one
      · rw [even, add_zero]
      · linarith [(odd one).2]
  · obtain ⟨k, rfl⟩ : ∃ k, n = k + 1 := by
      refine Nat.exists_eq_succ_of_ne_zero ?_
      rintro rfl
      simp at before
      linarith
    push_cast at above below odd before
    obtain ⟨r, rfl⟩ : ∃ r, q = k + r := ⟨q - k, by ring⟩
    rw [toEven_add k (by linarith) (by linarith)]
    split_ifs with less more
    · linarith
    · rfl
    · rcases Nat.mod_two_eq_zero_or_one k with even | one
      · linarith [(odd (by omega)).1]
      · rw [one]

@[simp] theorem toEven_natCast (n : ℕ) : toEven n = n := by
  simpa using toEven_add n le_rfl one_pos

theorem toEven_mono {p q : ℚ} (h : p ≤ q) : toEven p ≤ toEven q := by
  rcases (Nat.floor_mono h).lt_or_eq with apart | same
  · calc toEven p ≤ ⌊p⌋₊ + 1 := toEven_le_floor_succ p
      _ ≤ ⌊q⌋₊ := apart
      _ ≤ toEven q := floor_le_toEven q
  · unfold toEven
    rw [same]
    split_ifs <;> first | omega | linarith

/-- Rounding to a natural number moves a fraction by half at most. -/
theorem abs_toEven_sub_le {q : ℚ} (nonneg : 0 ≤ q) : |toEven q - q| ≤ 1 / 2 := by
  have below := Nat.floor_le nonneg
  have above := Nat.lt_floor_add_one q
  unfold toEven
  rw [abs_le]
  split_ifs with less more
  · constructor <;> linarith
  · push_cast
    constructor <;> linarith
  · have half : q - ⌊q⌋₊ = 1 / 2 := le_antisymm (not_lt.mp more) (not_lt.mp less)
    rcases Nat.mod_two_eq_zero_or_one ⌊q⌋₊ with even | odd
    · rw [even, Nat.add_zero]
      constructor <;> linarith
    · rw [odd]
      push_cast
      constructor <;> linarith

/-- The exponent of the last digit of the number closest to a fraction. -/
def lastPlace (x : ℚ) : ℤ := max (Int.log 2 x - 52) (-1074)

/-- The number in floating point that is closest to a fraction. -/
def nearest (x : ℚ) : ℚ := toEven (x / 2 ^ lastPlace x) * 2 ^ lastPlace x

theorem lastPlace_mono {x y : ℚ} (pos : 0 < x) (h : x ≤ y) : lastPlace x ≤ lastPlace y := by
  have := Int.log_mono_right (b := 2) pos h
  unfold lastPlace
  omega

/-- The lowest exponent that digits may have before they are rounded. -/
theorem le_lastPlace {v : ℚ} {e t : ℤ} (pos : 0 < v) (h : 2 ^ t ≤ v)
    (low : e ≤ max (t - 52) (-1074)) : e ≤ lastPlace v := by
  have : t ≤ Int.log 2 v := (Int.zpow_le_iff_le_log one_lt_two pos).mp (by exact_mod_cast h)
  unfold lastPlace
  omega

/-- A fraction has at most 53 digits in front of its last place. -/
theorem div_lastPlace_lt (x : ℚ) : x / 2 ^ lastPlace x < 2 ^ 53 := by
  rw [div_lt_iff₀ (by positivity), ← zpow_natCast, ← zpow_add₀ two_ne_zero]
  calc x < (2 : ℕ) ^ (Int.log 2 x + 1) := Int.lt_zpow_succ_log_self one_lt_two x
    _ ≤ 2 ^ ((53 : ℕ) + lastPlace x : ℤ) := by
      push_cast
      refine zpow_le_zpow_right₀ one_le_two ?_
      unfold lastPlace
      omega

/-- Unless it lies in the last place that there is, a fraction has all its 53 digits. -/
theorem le_div_lastPlace {x : ℚ} (pos : 0 < x) (h : -1074 < lastPlace x) :
    2 ^ 52 ≤ x / 2 ^ lastPlace x := by
  rw [le_div_iff₀ (by positivity), ← zpow_natCast, ← zpow_add₀ two_ne_zero]
  calc (2 : ℚ) ^ ((52 : ℕ) + lastPlace x : ℤ) ≤ (2 : ℕ) ^ Int.log 2 x := by
        push_cast
        refine zpow_le_zpow_right₀ one_le_two ?_
        unfold lastPlace at h ⊢
        omega
    _ ≤ x := Int.zpow_log_le_self one_lt_two pos

/-- The last place is where the digits before it are as many as there can be. -/
theorem lastPlace_eq {x : ℚ} {e : ℤ} (pos : 0 < x) (small : -1074 ≤ e) (below : x < 2 ^ 53 * 2 ^ e)
    (full : 2 ^ 52 * 2 ^ e ≤ x ∨ e = -1074) : lastPlace x = e := by
  have most : Int.log 2 x < 53 + e := by
    rw [← Int.lt_zpow_iff_log_lt one_lt_two pos]
    push_cast
    rw [zpow_add₀ two_ne_zero]
    exact_mod_cast below
  have least : 52 + e ≤ Int.log 2 x ∨ e = -1074 := by
    refine full.imp_left fun full => ?_
    rw [← Int.zpow_le_iff_le_log one_lt_two pos]
    push_cast
    rw [zpow_add₀ two_ne_zero]
    exact_mod_cast full
  unfold lastPlace
  omega

theorem toEven_div_lastPlace_le (x : ℚ) : toEven (x / 2 ^ lastPlace x) ≤ 2 ^ 53 := by
  have := toEven_mono (div_lastPlace_lt x).le
  rwa [← Nat.cast_ofNat (R := ℚ), ← Nat.cast_pow, toEven_natCast] at this

theorem le_toEven_div_lastPlace {x : ℚ} (pos : 0 < x) (h : -1074 < lastPlace x) :
    2 ^ 52 ≤ toEven (x / 2 ^ lastPlace x) := by
  have := toEven_mono (le_div_lastPlace pos h)
  rwa [← Nat.cast_ofNat (R := ℚ), ← Nat.cast_pow, toEven_natCast] at this

theorem nearest_nonneg (x : ℚ) : 0 ≤ nearest x := by
  unfold nearest
  positivity

theorem nearest_of_nonpos {x : ℚ} (h : x ≤ 0) : nearest x = 0 := by
  have least : x / 2 ^ lastPlace x ≤ 0 := div_nonpos_of_nonpos_of_nonneg h (by positivity)
  have := toEven_mono least
  rw [← Nat.cast_zero, toEven_natCast] at this
  simp [nearest, Nat.le_zero.mp this]

@[simp] theorem nearest_zero : nearest 0 = 0 := nearest_of_nonpos le_rfl

/-- Rounding to a number in floating point moves a fraction by half of its last place at most. -/
theorem abs_nearest_sub_le_place {x : ℚ} (nonneg : 0 ≤ x) :
    |nearest x - x| ≤ 1 / 2 * 2 ^ lastPlace x := by
  have place : (0 : ℚ) < 2 ^ lastPlace x := by positivity
  have scaled : nearest x - x =
      (toEven (x / 2 ^ lastPlace x) - x / 2 ^ lastPlace x) * 2 ^ lastPlace x := by
    rw [nearest, sub_mul, div_mul_cancel₀ x place.ne']
  rw [scaled, abs_mul, abs_of_pos place]
  gcongr
  exact abs_toEven_sub_le (by positivity)

/-- A fraction that has all its digits is moved by the last of them, in proportion to its size. -/
theorem abs_nearest_sub_le {x : ℚ} (pos : 0 < x) (normal : -1074 < lastPlace x) :
    |nearest x - x| ≤ x / 2 ^ 53 := by
  have full := le_div_lastPlace pos normal
  rw [le_div_iff₀ (by positivity)] at full
  refine (abs_nearest_sub_le_place pos.le).trans ?_
  rw [le_div_iff₀ (by norm_num)]
  linarith

/-- What is not below one is moved by less than one part in 2⁵³. -/
theorem nearest_bounds_of_one_le {x : ℚ} (h : 1 ≤ x) :
    x - x / 2 ^ 53 ≤ nearest x ∧ nearest x ≤ x + x / 2 ^ 53 := by
  have pos : 0 < x := one_pos.trans_le h
  have reached : (2 : ℚ) ^ (0 : ℤ) ≤ x := by simpa using h
  have place : -52 ≤ lastPlace x := le_lastPlace pos reached (by norm_num)
  have moved := abs_le.mp (abs_nearest_sub_le pos (by omega))
  constructor <;> linarith [moved.1, moved.2]

/-- A fraction moves by no more than a share of whatever is not below it, and not below one. -/
theorem abs_nearest_sub_le_of_le {x y : ℚ} (nonneg : 0 ≤ x) (le : x ≤ y) (one : 1 ≤ y) :
    |nearest x - x| ≤ y / 2 ^ 53 := by
  rcases nonneg.eq_or_lt with rfl | pos
  · simp only [nearest_zero, sub_self, abs_zero]
    positivity
  have reached : (2 : ℚ) ^ (0 : ℤ) ≤ y := by simpa using one
  have normal : -52 ≤ lastPlace y := le_lastPlace (by linarith) reached (by norm_num)
  have full := le_div_lastPlace (by linarith) (by omega : -1074 < lastPlace y)
  rw [le_div_iff₀ (by positivity)] at full
  have step : (2 : ℚ) ^ lastPlace x ≤ 2 ^ lastPlace y :=
    zpow_le_zpow_right₀ one_le_two (lastPlace_mono pos le)
  have moved := abs_nearest_sub_le_place nonneg
  rw [le_div_iff₀ (by norm_num)]
  linarith

/-- Rounding keeps order. Between two last places lies a power of two, which is its own nearest
number. -/
theorem nearest_mono {x y : ℚ} (h : x ≤ y) : nearest x ≤ nearest y := by
  rcases le_or_gt x 0 with nonpos | pos
  · rw [nearest_of_nonpos nonpos]
    exact nearest_nonneg y
  unfold nearest
  rcases (lastPlace_mono pos h).lt_or_eq with apart | same
  · have below := toEven_div_lastPlace_le x
    have above := le_toEven_div_lastPlace (pos.trans_le h) ((le_max_right ..).trans_lt apart)
    calc (toEven (x / 2 ^ lastPlace x) : ℚ) * 2 ^ lastPlace x
        ≤ 2 ^ 53 * 2 ^ lastPlace x := by
          gcongr
          exact_mod_cast below
      _ = 2 ^ (lastPlace x + 53) := by
          rw [zpow_add₀ two_ne_zero, mul_comm]
          norm_cast
      _ ≤ 2 ^ (lastPlace y + 52) := zpow_le_zpow_right₀ one_le_two (by omega)
      _ = 2 ^ 52 * 2 ^ lastPlace y := by
          rw [zpow_add₀ two_ne_zero, mul_comm]
          norm_cast
      _ ≤ toEven (y / 2 ^ lastPlace y) * 2 ^ lastPlace y := by
          gcongr
          exact_mod_cast above
  · rw [same]
    gcongr
    exact toEven_mono (by gcongr)

/-- A number with fewer than 54 digits is its own nearest number. -/
theorem nearest_of_digits {m : ℕ} {e : ℤ} (pos : 0 < m) (digits : m < 2 ^ 53) (small : -1074 ≤ e) :
    nearest (m * 2 ^ e) = m * 2 ^ e := by
  have place : lastPlace (m * 2 ^ e) ≤ e := by
    have : Int.log 2 ((m : ℚ) * 2 ^ e) < 53 + e := by
      rw [← Int.lt_zpow_iff_log_lt one_lt_two (by positivity)]
      push_cast
      rw [zpow_add₀ two_ne_zero]
      gcongr
      exact_mod_cast digits
    unfold lastPlace
    omega
  obtain ⟨k, shift⟩ := Int.le.dest place
  have whole : (m * 2 ^ e : ℚ) / 2 ^ lastPlace (m * 2 ^ e) = (m * 2 ^ k : ℕ) := by
    rw [div_eq_iff (by positivity)]
    nth_rewrite 1 [← shift]
    rw [zpow_add₀ two_ne_zero, zpow_natCast]
    push_cast
    ring
  rw [nearest, whole, toEven_natCast, ← whole, div_mul_cancel₀ _ (by positivity)]

theorem nearest_eq_of_digits {x : ℚ} (m : ℕ) (e : ℤ) (worth : x = m * 2 ^ e) (pos : 0 < m)
    (digits : m < 2 ^ 53) (small : -1074 ≤ e) : nearest x = x := by
  rw [worth]
  exact nearest_of_digits pos digits small

theorem nearest_natCast {n : ℕ} (digits : n < 2 ^ 53) : nearest n = n := by
  rcases Nat.eq_zero_or_pos n with rfl | pos
  · simp
  · simpa using nearest_of_digits pos digits (by norm_num : (-1074 : ℤ) ≤ 0)

/-- What lies below a power of two is not rounded beyond it. -/
theorem nearest_le_two_zpow {x : ℚ} {e : ℤ} (small : -1074 ≤ e) (h : x ≤ 2 ^ e) :
    nearest x ≤ 2 ^ e :=
  calc nearest x ≤ nearest (2 ^ e) := nearest_mono h
    _ = 2 ^ e := by simpa using nearest_of_digits one_pos (by norm_num) small

theorem nearest_le_one {x : ℚ} (h : x ≤ 1) : nearest x ≤ 1 := by
  simpa using nearest_le_two_zpow (by norm_num : (-1074 : ℤ) ≤ 0) (by simpa using h)

/-- What reaches a power of two is not rounded below it. -/
theorem two_zpow_le_nearest {x : ℚ} {e : ℤ} (small : -1074 ≤ e) (h : 2 ^ e ≤ x) :
    2 ^ e ≤ nearest x :=
  calc (2 : ℚ) ^ e = nearest (2 ^ e) := by
        simpa using (nearest_of_digits one_pos (by norm_num) small).symm
    _ ≤ nearest x := nearest_mono h

/-- What lies below half of the least number in floating point becomes zero. -/
theorem nearest_of_tiny {x : ℚ} (h : x < 2 ^ (-1075 : ℤ)) : nearest x = 0 := by
  rcases le_or_gt x 0 with nonpos | pos
  · exact nearest_of_nonpos nonpos
  have least : (0 : ℚ) < 2 ^ (-1074 : ℤ) := by positivity
  have half : (2 : ℚ) ^ (-1075 : ℤ) = 1 / 2 * 2 ^ (-1074 : ℤ) := by
    rw [show (-1075 : ℤ) = -1 + -1074 by norm_num, zpow_add₀ two_ne_zero]
    norm_num
  have place : lastPlace x = -1074 := by
    refine lastPlace_eq pos le_rfl ?_ (Or.inr rfl)
    linarith
  have below : x / 2 ^ (-1074 : ℤ) < 1 / 2 := by
    rw [div_lt_iff₀ least, ← half]
    exact h
  have above : 0 < x / 2 ^ (-1074 : ℤ) := div_pos pos least
  have none : toEven (x / 2 ^ (-1074 : ℤ)) = 0 := by
    refine toEven_eq_of_near above.le ?_ ?_ (by simp) <;> rw [Nat.cast_zero] <;> linarith
  rw [nearest, place, none, Nat.cast_zero, zero_mul]

end Cadence.Nearest
