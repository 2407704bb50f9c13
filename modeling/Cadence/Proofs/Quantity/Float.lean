import Cadence.Proofs.Quantity.Rounding
import Cadence.Quantity
import Mathlib

/-!
# Floating point as rounded fractions

What the logical model of floating point computes, in terms of fractions: a quotient, a product and
a natural number are the nearest numbers to the exact ones, and comparisons compare exactly.
-/

namespace Cadence.Nearest

open Float.Model hiding pack unpack
open Float.Model.UnpackedFloat

section Packing

/-- Packing keeps all of a normal number. -/
theorem unpack_pack_normal (sign : Sign) {m : ℕ} {e : ℤ} (pos : 0 < m) (full : 2 ^ 52 ≤ m)
    (digits : m < 2 ^ 53) (small : -1074 ≤ e) (large : e ≤ 971) :
    unpack .binary64 (pack .binary64 (.finite sign m e pos)) = .finite sign m e pos := by
  obtain ⟨biased, exponent⟩ : ∃ biased : ℕ, (biased : ℤ) = e + 1023 + 52 :=
    ⟨(e + 1023 + 52).toNat, by omega⟩
  have log : m.log2 = 52 := (Nat.log2_eq_iff pos.ne').mpr ⟨full, digits⟩
  have within : ¬ 2 ^ 11 ≤ biased + 1 := by omega
  have packed : pack .binary64 (.finite sign m e pos) =
      packComponents .binary64 sign (BitVec.ofNat 11 biased) (BitVec.ofNat 52 m) := by
    have same : (e + (Format.binary64.exponentBias : ℤ) + (52 : ℕ)).toNat = biased := by
      simp [Format.exponentBias]
      omega
    simp only [pack, log, same, within, if_false]
    rfl
  have low : BitVec.ofNat 11 biased ≠ 0#11 := by
    intro h
    have := congrArg BitVec.toNat h
    simp at this
    omega
  have high : BitVec.ofNat 11 biased ≠ -1#11 := by
    intro h
    have := congrArg BitVec.toNat h
    simp at this
    omega
  rw [packed]
  simp only [unpack, unpackExponent_packComponents, unpackMantissa_packComponents,
    unpackSign_packComponents, Sign.ofBitVec_toBitVec, low, high, if_false]
  have mantissa : (1#1 ++ BitVec.ofNat 52 m).toNat = m := by
    rw [BitVec.toNat_append, ← Nat.shiftLeft_add_eq_or_of_lt (BitVec.isLt _)]
    simp
    omega
  simp only [finite.injEq, true_and]
  refine ⟨mantissa, ?_⟩
  simp [Format.exponentBias]
  omega

/-- Packing keeps all of a number in the last place. -/
theorem unpack_pack_subnormal (sign : Sign) {m : ℕ} (pos : 0 < m) (digits : m < 2 ^ 52) :
    unpack .binary64 (pack .binary64 (.finite sign m (-1074) pos)) =
      .finite sign m (-1074) pos := by
  have log : m.log2 + 1 ≠ 53 := by
    have := (Nat.log2_lt pos.ne').mpr digits
    omega
  have packed : pack .binary64 (.finite sign m (-1074) pos) =
      packComponents .binary64 sign 0#11 (BitVec.ofNat 52 m) := by
    simp only [pack, Format.exponentBias, Format.mantissaBits]
    norm_num [log]
  have some : BitVec.ofNat 52 m ≠ 0#52 := by
    intro h
    have := congrArg BitVec.toNat h
    simp at this
    omega
  rw [packed]
  simp only [unpack, unpackExponent_packComponents, unpackMantissa_packComponents,
    unpackSign_packComponents, Sign.ofBitVec_toBitVec, some, if_false, dite_false]
  simp [Format.exponentBias]
  omega

/-- Packing keeps all of a number that is not too large. -/
theorem unpack_pack_of_denotes {x : UnpackedFloat} {v : ℚ} (h : Denotes x v)
    (large : v < 2 ^ 1024) :
    unpack .binary64 (pack .binary64 x) = x := by
  match x, h with
  | .zero .positive, _ => exact unpack_packedZero
  | .finite .positive m e pos, ⟨canonical, value⟩ =>
    rcases canonical.full with full | rfl
    · refine unpack_pack_normal .positive pos full canonical.digits canonical.small ?_
      have : (2 : ℚ) ^ (52 + e) < 2 ^ (1024 : ℤ) := by
        calc (2 : ℚ) ^ (52 + e) = 2 ^ 52 * 2 ^ e := by
              rw [zpow_add₀ two_ne_zero]
              norm_cast
          _ ≤ m * 2 ^ e := by
              gcongr
              exact_mod_cast full
          _ < 2 ^ (1024 : ℤ) := value ▸ large
      have := (zpow_lt_zpow_iff_right₀ one_lt_two).mp this
      omega
    · rcases lt_or_ge m (2 ^ 52) with subnormal | full
      · exact unpack_pack_subnormal .positive pos subnormal
      · exact unpack_pack_normal .positive pos full canonical.digits canonical.small (by norm_num)

/-- Digits and an exponent that were packed are as they are kept, and not too large. -/
theorem canonical_of_unpack {b : BitVec Format.binary64.numBits} {sign : Sign} {m : ℕ} {e : ℤ}
    {pos : 0 < m} (h : unpack .binary64 b = .finite sign m e pos) : Canonical m e ∧ e ≤ 971 := by
  have exponent := (unpackExponent b).isLt
  have mantissa := (unpackMantissa b).isLt
  simp only [Format.binary64] at exponent mantissa
  simp only [unpack] at h
  split_ifs at h with infinite nan zero nothing
  · simp only [finite.injEq] at h
    obtain ⟨-, rfl, rfl⟩ := h
    rw [zero]
    refine ⟨⟨by omega, ?_, ?_⟩, ?_⟩ <;> simp [Format.exponentBias]
  · simp only [finite.injEq] at h
    obtain ⟨-, rfl, rfl⟩ := h
    have low : 0 < (unpackExponent b).toNat := Nat.pos_of_ne_zero fun h => zero (by
      simpa using BitVec.eq_of_toNat_eq (y := 0#11) h)
    have high : (unpackExponent b).toNat ≠ 2 ^ 11 - 1 := fun h => infinite (by
      simpa using BitVec.eq_of_toNat_eq (y := -1#11) h)
    have digits : (1#1 ++ unpackMantissa b).toNat = 2 ^ 52 + (unpackMantissa b).toNat := by
      rw [BitVec.toNat_append, ← Nat.shiftLeft_add_eq_or_of_lt (BitVec.isLt _)]
      rfl
    rw [digits]
    refine ⟨⟨by omega, ?_, Or.inl (by omega)⟩, ?_⟩ <;> simp [Format.exponentBias] <;> omega

theorem Canonical.lt_two_pow {m : ℕ} {e : ℤ} (h : Canonical m e) (large : e ≤ 971) :
    (m * 2 ^ e : ℚ) < 2 ^ 1024 :=
  calc (m * 2 ^ e : ℚ) < 2 ^ 53 * 2 ^ e := by
        gcongr
        exact_mod_cast h.digits
    _ ≤ 2 ^ 53 * 2 ^ (971 : ℤ) := by
      gcongr
      norm_num
    _ = 2 ^ (1024 : ℤ) := by
      rw [← zpow_natCast, ← zpow_add₀ two_ne_zero]
      rfl
    _ = 2 ^ 1024 := zpow_natCast 2 1024

/-- A float is determined by what is kept in it. -/
theorem ofModel_pack_unpack (x : Float) : Float.ofModel (.pack x.toModel.unpack) = x :=
  Float.toBits_inj.mp (UInt64.toBitVec_inj.mp (pack_unpack_of_valid x.toModel.valid))

/-- Numbers that differ in their sign only are the negatives of each other. -/
theorem neg_eq_of_unpack {x y : Float} (h : x.toModel.unpack = y.toModel.unpack.neg) : -y = x :=
  calc -y = Float.ofModel (.pack y.toModel.unpack.neg) := rfl
    _ = x := by rw [← h, ofModel_pack_unpack]

end Packing

/-- A number in floating point that is not negative, and what it is worth. -/
def IsNumber (x : Float) (v : ℚ) : Prop := Denotes x.toModel.unpack v

theorem isNumber_pack {x : UnpackedFloat} {v : ℚ} (h : Denotes x v) (large : v < 2 ^ 1024) :
    IsNumber (.ofModel (.pack x)) v := by
  have kept : (Float.Model.pack x).unpack = x := unpack_pack_of_denotes h large
  rw [IsNumber, kept]
  exact h

theorem infinity_eq : (1.0 / 0.0 : Float) = .ofModel (.pack (.infinity .positive)) := by
  decide +kernel

/-- What has its last digit beyond the last place that there is, is packed as infinity. -/
theorem ofModel_pack_of_large {x : UnpackedFloat} {v : ℚ} (h : Denotes x v)
    (large : 2 ^ 1024 ≤ v) : Float.ofModel (.pack x) = 1.0 / 0.0 := by
  match x, h with
  | .zero .positive, nothing =>
    exact absurd nothing ((pow_pos two_pos 1024).trans_le large).ne'
  | .finite .positive m e pos, ⟨canonical, value⟩ =>
    have exponent : 971 < e := by
      by_contra! small
      exact absurd (canonical.lt_two_pow small) (value ▸ large).not_gt
    have beyond : 2 ^ 11 ≤ (e + (Format.binary64.exponentBias : ℤ) + (52 : ℕ)).toNat + 1 := by
      simp [Format.exponentBias]
      omega
    have packed : pack .binary64 (.finite .positive m e pos) =
        pack .binary64 (.infinity .positive) := if_pos beyond
    rw [infinity_eq, Float.Model.pack, Float.Model.pack]
    simp only [packed]

/-- What a fraction is rounded to: the nearest number, or infinity if that number is too large. -/
structure Rounds (x : Float) (q : ℚ) : Prop where
  number : nearest q < 2 ^ 1024 → IsNumber x (nearest q)
  infinite : 2 ^ 1024 ≤ nearest q → x = 1.0 / 0.0

theorem rounds_pack {x : UnpackedFloat} {q : ℚ} (h : Denotes x (nearest q)) :
    Rounds (.ofModel (.pack x)) q :=
  ⟨isNumber_pack h, ofModel_pack_of_large h⟩

section Order

variable {x y : Float} {v w : ℚ}

/-- Digits and exponents as they are kept compare like the fractions they stand for. -/
theorem Canonical.lt_of_exponent_lt {m n : ℕ} {e f : ℤ} (h : Canonical m e) (h' : Canonical n f)
    (apart : e < f) : (m * 2 ^ e : ℚ) < n * 2 ^ f := by
  have full : 2 ^ 52 ≤ n := h'.full.resolve_right (by have := h.small; omega)
  calc (m * 2 ^ e : ℚ) < 2 ^ 53 * 2 ^ e := by
        gcongr
        exact_mod_cast h.digits
    _ = 2 ^ 52 * 2 ^ (e + 1) := by
        rw [zpow_add₀ two_ne_zero]
        ring
    _ ≤ 2 ^ 52 * 2 ^ f := by
        gcongr
        · norm_num
        · omega
    _ ≤ n * 2 ^ f := by
        gcongr
        exact_mod_cast full

/-- Numbers compare like the fractions they stand for. -/
theorem compare_eq {a b : UnpackedFloat} (h : Denotes a v) (h' : Denotes b w) :
    a.compare b = some (compare v w) := by
  match a, b, h, h' with
  | .zero .positive, .zero .positive, h, h' =>
    rw [show v = w from h.trans h'.symm, compare_eq_iff_eq.mpr rfl]
    rfl
  | .zero .positive, .finite .positive n f pos, h, ⟨_, value⟩ =>
    have : v < w := by rw [show v = 0 from h, value]; positivity
    rw [compare_lt_iff_lt.mpr this]
    rfl
  | .finite .positive m e pos, .zero .positive, ⟨_, value⟩, h' =>
    have : w < v := by rw [show w = 0 from h', value]; positivity
    rw [compare_gt_iff_gt.mpr this]
    rfl
  | .finite .positive m e pos, .finite .positive n f pos', ⟨canonical, value⟩,
      ⟨canonical', value'⟩ =>
    rw [value, value']
    rcases lt_trichotomy e f with less | rfl | more
    · rw [compare_lt_iff_lt.mpr (canonical.lt_of_exponent_lt canonical' less)]
      simp [UnpackedFloat.compare, compare_lt_iff_lt.mpr less]
    · have scaled : compare (m * 2 ^ e : ℚ) (n * 2 ^ e) = compare m n := by
        rcases lt_trichotomy m n with less | rfl | more
        · rw [compare_lt_iff_lt.mpr less, compare_lt_iff_lt]
          gcongr
        · rw [compare_eq_iff_eq.mpr rfl, compare_eq_iff_eq.mpr rfl]
        · rw [compare_gt_iff_gt.mpr more, compare_gt_iff_gt]
          gcongr
      rw [scaled]
      simp [UnpackedFloat.compare]
    · rw [compare_gt_iff_gt.mpr (canonical'.lt_of_exponent_lt canonical more)]
      simp [UnpackedFloat.compare, compare_gt_iff_gt.mpr more]

/-- What numbers are compared with is a number too, as far as they can tell, or else the same to all
of them. -/
theorem compare_cases (z : Float) :
    (∃ u : ℚ, ∀ a v, Denotes a v → a.compare z.toModel.unpack = some (compare v u)) ∨
      ∃ outcome, ∀ a v, Denotes a v → a.compare z.toModel.unpack = outcome := by
  have kept (m : ℕ) (e : ℤ) (pos : 0 < m) (same : z.toModel.unpack = .finite .positive m e pos) :
      Canonical m e := (canonical_of_unpack same).1
  generalize z.toModel.unpack = u at kept
  match u with
  | .notANumber =>
    refine Or.inr ⟨none, fun a v worth => ?_⟩
    cases a <;> rfl
  | .infinity sign =>
    refine Or.inr ⟨some (match sign with | .positive => .lt | .negative => .gt), ?_⟩
    intro a v worth
    match a, worth with
    | .zero .positive, _ | .finite .positive .., _ => cases sign <;> rfl
  | .zero sign =>
    refine Or.inl ⟨0, fun a v worth => ?_⟩
    rw [← compare_eq worth (show Denotes (.zero .positive) 0 from rfl)]
    match a, worth with
    | .zero .positive, _ | .finite .positive .., _ => rfl
  | .finite .negative m e pos =>
    refine Or.inr ⟨some .gt, fun a v worth => ?_⟩
    match a, worth with
    | .zero .positive, _ | .finite .positive .., _ => rfl
  | .finite .positive m e pos =>
    exact Or.inl ⟨m * 2 ^ e, fun a v worth => compare_eq worth ⟨kept m e pos rfl, rfl⟩⟩

/-- What is no larger than a number is below whatever the number is below. -/
theorem IsNumber.lt_of_le {z : Float} (h : IsNumber x v) (h' : IsNumber y w)
    (le : v ≤ w) (below : y < z) : x < z := by
  have below : (y.toModel.unpack.compare z.toModel.unpack == some .lt) = true :=
    of_decide_eq_true below
  refine decide_eq_true (?_ : (x.toModel.unpack.compare z.toModel.unpack == some .lt) = true)
  rcases compare_cases z with ⟨u, worth⟩ | ⟨outcome, same⟩
  · rw [worth _ _ h', beq_iff_eq, Option.some.injEq, compare_lt_iff_lt] at below
    rw [worth _ _ h, beq_iff_eq, Option.some.injEq, compare_lt_iff_lt]
    exact le.trans_lt below
  · rwa [same _ _ h, ← same _ _ h']

theorem IsNumber.le_of_le {z : Float} (h : IsNumber x v) (h' : IsNumber y w)
    (le : v ≤ w) (below : y ≤ z) : x ≤ z := by
  have below : (y.toModel.unpack.compare z.toModel.unpack).any (·.isLE) := of_decide_eq_true below
  refine decide_eq_true (?_ : (x.toModel.unpack.compare z.toModel.unpack).any (·.isLE) = true)
  rcases compare_cases z with ⟨u, worth⟩ | ⟨outcome, same⟩
  · rw [worth _ _ h', Option.any_some, Ordering.isLE_iff_ne_gt, compare_gt_iff_gt, not_lt] at below
    rw [worth _ _ h, Option.any_some, Ordering.isLE_iff_ne_gt, compare_gt_iff_gt, not_lt]
    exact le.trans below
  · rwa [same _ _ h, ← same _ _ h']

theorem IsNumber.le_iff (h : IsNumber x v) (h' : IsNumber y w) : x ≤ y ↔ v ≤ w := by
  show decide (x.toModel ≤ y.toModel) = true ↔ _
  rw [decide_eq_true_iff]
  show (x.toModel.unpack.compare y.toModel.unpack).any (·.isLE) = true ↔ _
  rw [compare_eq h h', Option.any_some, Ordering.isLE_iff_ne_gt, compare_gt_iff_gt, not_lt]

/-- Digits and an exponent are kept for one fraction only. -/
theorem Denotes.unique {a b : UnpackedFloat} (h : Denotes a v) (h' : Denotes b v) : a = b := by
  match a, b, h, h' with
  | .zero .positive, .zero .positive, _, _ => rfl
  | .zero .positive, .finite .positive n f pos, h, ⟨_, value⟩
  | .finite .positive n f pos, .zero .positive, ⟨_, value⟩, h =>
    have : 0 < v := by rw [value]; positivity
    exact absurd h this.ne'
  | .finite .positive m e pos, .finite .positive n f pos', ⟨canonical, value⟩,
      ⟨canonical', value'⟩ =>
    rcases lt_trichotomy e f with less | rfl | more
    · exact absurd (value.symm.trans value') (canonical.lt_of_exponent_lt canonical' less).ne
    · have scaled : (m : ℚ) = n :=
        mul_right_cancel₀ (zpow_ne_zero e two_ne_zero) (value.symm.trans value')
      obtain rfl : m = n := by exact_mod_cast scaled
      rfl
    · exact absurd (value'.symm.trans value) (canonical'.lt_of_exponent_lt canonical more).ne

/-- What digits and an exponent are kept for is not rounded any more. -/
theorem Denotes.nearest_eq {a : UnpackedFloat} (h : Denotes a v) : nearest v = v := by
  match a, h with
  | .zero .positive, h => rw [show v = 0 from h, nearest_zero]
  | .finite .positive m e pos, ⟨canonical, value⟩ =>
    exact nearest_eq_of_digits m e value pos canonical.digits canonical.small

/-- Numbers of the same worth are the same. -/
theorem IsNumber.unique (h : IsNumber x v) (h' : IsNumber y v) : x = y := by
  have same : x.toModel.unpack = y.toModel.unpack := Denotes.unique h h'
  rw [← ofModel_pack_unpack x, same, ofModel_pack_unpack]

theorem IsNumber.isFinite (h : IsNumber x v) : x.isFinite := by
  show x.toModel.unpack.isFinite
  unfold IsNumber at h
  generalize x.toModel.unpack = u at h ⊢
  match u, h with
  | .zero .positive, _ | .finite .positive .., _ => rfl

/-- A fraction is rounded to one number only. -/
theorem Rounds.unique {q : ℚ} (h : Rounds x q) (h' : Rounds y q) : x = y := by
  rcases lt_or_ge (nearest q) (2 ^ 1024) with fits | large
  · exact (h.number fits).unique (h'.number fits)
  · rw [h.infinite large, h'.infinite large]

theorem IsNumber.antisymm (h : IsNumber x v) (h' : IsNumber y w) (below : x ≤ y) (above : y ≤ x) :
    x = y := by
  obtain rfl : v = w := le_antisymm ((h.le_iff h').mp below) ((h'.le_iff h).mp above)
  exact h.unique h'

/-- What lies between two finite numbers is finite. -/
theorem isFinite_of_between {low x high : Float} (below : low.isFinite) (above : high.isFinite)
    (least : low ≤ x) (most : x ≤ high) : x.isFinite := by
  have least : (low.toModel.unpack.compare x.toModel.unpack).any (·.isLE) := of_decide_eq_true least
  have most : (x.toModel.unpack.compare high.toModel.unpack).any (·.isLE) := of_decide_eq_true most
  show x.toModel.unpack.isFinite
  have below : low.toModel.unpack.isFinite := below
  have above : high.toModel.unpack.isFinite := above
  generalize x.toModel.unpack = u at least most ⊢
  generalize low.toModel.unpack = a at below least
  generalize high.toModel.unpack = b at above most
  match u with
  | .notANumber => cases a <;> simp [UnpackedFloat.compare] at least
  | .infinity .positive => cases b <;> simp_all [UnpackedFloat.compare, UnpackedFloat.isFinite]
  | .infinity .negative => cases a <;> simp_all [UnpackedFloat.compare, UnpackedFloat.isFinite]
  | .zero _ => rfl
  | .finite .. => rfl

/-- What lies between two positive numbers is a number. -/
theorem exists_isNumber_of_between {low x high : Float} {v w : ℚ} (below : IsNumber low v)
    (pos : 0 < v) (above : IsNumber high w) (least : low ≤ x) (most : x ≤ high) :
    ∃ u, IsNumber x u := by
  have least : (low.toModel.unpack.compare x.toModel.unpack).any (·.isLE) := of_decide_eq_true least
  have most : (x.toModel.unpack.compare high.toModel.unpack).any (·.isLE) := of_decide_eq_true most
  unfold IsNumber at below above ⊢
  have kept (m : ℕ) (e : ℤ) (digits : 0 < m)
      (same : x.toModel.unpack = .finite .positive m e digits) : Canonical m e :=
    (canonical_of_unpack same).1
  generalize x.toModel.unpack = u at least most kept ⊢
  generalize low.toModel.unpack = a at below least
  generalize high.toModel.unpack = b at above most
  match a, below with
  | .zero .positive, nothing => exact absurd nothing pos.ne'
  | .finite .positive m e digits, _ =>
    match u with
    | .notANumber => simp [UnpackedFloat.compare] at least
    | .infinity .positive =>
      match b, above with
      | .zero .positive, _ | .finite .positive _ _ _, _ => simp [UnpackedFloat.compare] at most
    | .infinity .negative => simp [UnpackedFloat.compare] at least
    | .zero _ => simp [UnpackedFloat.compare] at least
    | .finite .negative n f pos => simp [UnpackedFloat.compare] at least
    | .finite .positive n f pos => exact ⟨n * 2 ^ f, kept n f pos rfl, rfl⟩

end Order

section Arithmetic

variable {x y : Float} {v w : ℚ}

theorem two_zpow_log2_le {m : ℕ} (pos : 0 < m) (e : ℤ) : (2 ^ (m.log2 + e) : ℚ) ≤ m * 2 ^ e := by
  rw [zpow_add₀ two_ne_zero, zpow_natCast]
  gcongr
  exact_mod_cast Nat.log2_self_le pos.ne'

theorem lt_two_zpow_log2 (m : ℕ) (e : ℤ) : (m * 2 ^ e : ℚ) < 2 ^ (m.log2 + 1 + e) := by
  rw [zpow_add₀ two_ne_zero]
  gcongr
  exact_mod_cast Nat.lt_log2_self

/-- The digits of a quotient, and what is left behind them, stand for the quotient. -/
theorem denotes_divCore {m n : ℕ} {e f : ℤ} (pos : 0 < m) (pos' : 0 < n) :
    let (digits, place, accuracy) := divCore .binary64 m e n f
    Denotes (roundWithAccuracy .binary64 .positive digits place accuracy)
      (nearest (m * 2 ^ e / (n * 2 ^ f))) := by
  obtain ⟨t, target⟩ : ∃ t, min (e - f) (Format.binary64.targetExponent
      (totalExponent m e - totalExponent n f)) = t := ⟨_, rfl⟩
  -- The last digit of the quotient lies at `t`, not above the last place of what it stands for;
  -- the remainder of the division is all that is left behind it.
  have upper : t ≤ e - f := target ▸ min_le_left ..
  have lower : t ≤ max (m.log2 + e - (n.log2 + 1 + f) - 52) (-1074) := by
    rw [← target]
    refine (min_le_right ..).trans ?_
    simp only [Format.targetExponent, totalExponent, Format.mantissaBits, Format.minExponent]
    norm_num
    omega
  obtain ⟨k, shift⟩ := Int.le.dest upper
  have shifted : (e - f - t).toNat = k := by omega
  have core : divCore .binary64 m e n f =
      (m <<< k / n, t, accuracyOfFraction (m <<< k % n) n) := by
    dsimp only [divCore]
    rw [target, shifted]
  have fraction : (((m <<< k) / n : ℕ) + ((m <<< k) % n : ℕ) / n : ℚ) * 2 ^ t =
      m * 2 ^ e / (n * 2 ^ f) := by
    have parts : ((m <<< k : ℕ) : ℚ) = n * ((m <<< k) / n : ℕ) + ((m <<< k) % n : ℕ) := by
      exact_mod_cast (Nat.div_add_mod (m <<< k) n).symm
    have whole : ((m <<< k) / n : ℕ) + ((m <<< k) % n : ℕ) / n = (m * 2 ^ k / n : ℚ) := by
      rw [Nat.shiftLeft_eq] at parts ⊢
      push_cast at parts
      rw [parts]
      field_simp
    have exponent : e = t + k + f := by omega
    rw [whole, exponent, zpow_add₀ two_ne_zero, zpow_add₀ two_ne_zero, zpow_natCast]
    field_simp
  have positive : (0 : ℚ) < ((m <<< k) / n : ℕ) + ((m <<< k) % n : ℕ) / n := by
    refine (mul_pos_iff_of_pos_right (zpow_pos (two_pos : (0 : ℚ) < 2) t)).mp ?_
    rw [fraction]
    positivity
  have least : (2 : ℚ) ^ (m.log2 + e - (n.log2 + 1 + f)) ≤ m * 2 ^ e / (n * 2 ^ f) := by
    rw [zpow_sub₀ two_ne_zero]
    gcongr
    · exact two_zpow_log2_le pos e
    · exact (lt_two_zpow_log2 n f).le
  rw [core, ← fraction]
  refine denotes_roundWithAccuracy (stands_ofFraction _ (Nat.mod_lt _ pos')) positive ?_
  rw [fraction]
  exact le_lastPlace (by positivity) least lower

/-- A quotient is the nearest number to the exact one. -/
theorem denotes_div {a b : UnpackedFloat} (h : Denotes a v) (h' : Denotes b w) (pos : 0 < w) :
    Denotes (UnpackedFloat.div .binary64 a b) (nearest (v / w)) := by
  match a, b, h, h' with
  | .zero .positive, .zero .positive, _, h' => exact absurd h' pos.ne'
  | .finite .positive _ _ _, .zero .positive, _, h' => exact absurd h' pos.ne'
  | .zero .positive, .finite .positive n f _, h, _ =>
    rw [show v = 0 from h, zero_div, nearest_zero]
    exact rfl
  | .finite .positive m e pos, .finite .positive n f pos', ⟨_, value⟩, ⟨_, value'⟩ =>
    rw [value, value']
    exact denotes_divCore pos pos'

/-- Digits that are enough, or lie low enough, are rounded to the nearest number. -/
theorem denotes_roundExact {m : ℕ} {e : ℤ} (pos : 0 < m) (enough : 2 ^ 52 ≤ m ∨ e ≤ -1074) :
    Denotes (roundWithAccuracy .binary64 .positive m e .exact) (nearest (m * 2 ^ e)) := by
  refine denotes_roundWithAccuracy (stands_exact m) (by exact_mod_cast pos) ?_
  refine le_lastPlace (by positivity) (two_zpow_log2_le pos e) ?_
  have log : 52 ≤ m.log2 ∨ e ≤ -1074 := enough.imp_left (Nat.le_log2 pos.ne').mpr
  omega

/-- A product is the nearest number to the exact one. -/
theorem denotes_mul {a b : UnpackedFloat} (h : Denotes a v) (h' : Denotes b w) :
    Denotes (UnpackedFloat.mul .binary64 a b) (nearest (v * w)) := by
  match a, b, h, h' with
  | .zero .positive, .zero .positive, h, _ | .zero .positive, .finite .positive _ _ _, h, _ =>
    rw [show v = 0 from h, zero_mul, nearest_zero]
    exact rfl
  | .finite .positive _ _ _, .zero .positive, _, h' =>
    rw [show w = 0 from h', mul_zero, nearest_zero]
    exact rfl
  | .finite .positive m e pos, .finite .positive n f pos', ⟨canonical, value⟩,
      ⟨canonical', value'⟩ =>
    have product : v * w = (m * n : ℕ) * 2 ^ (e + f) := by
      rw [value, value', zpow_add₀ two_ne_zero]
      push_cast
      ring
    rw [product]
    refine denotes_roundExact (Nat.mul_pos pos pos') ?_
    rcases canonical.full with full | rfl
    · exact Or.inl (full.trans (Nat.le_mul_of_pos_right m pos'))
    · rcases canonical'.full with full | rfl
      · exact Or.inl (full.trans (Nat.le_mul_of_pos_left n pos))
      · exact Or.inr (by norm_num)

theorem IsNumber.rounds_div (h : IsNumber x v) (h' : IsNumber y w) (pos : 0 < w) :
    Rounds (x / y) (v / w) :=
  rounds_pack (denotes_div h h' pos)

theorem IsNumber.rounds_mul (h : IsNumber x v) (h' : IsNumber y w) : Rounds (x * y) (v * w) :=
  rounds_pack (denotes_mul h h')

theorem IsNumber.div (h : IsNumber x v) (h' : IsNumber y w) (pos : 0 < w)
    (large : nearest (v / w) < 2 ^ 1024) : IsNumber (x / y) (nearest (v / w)) :=
  (h.rounds_div h' pos).number large

theorem IsNumber.mul (h : IsNumber x v) (h' : IsNumber y w)
    (large : nearest (v * w) < 2 ^ 1024) : IsNumber (x * y) (nearest (v * w)) :=
  (h.rounds_mul h').number large

/-- Digits are moved up as far as there is room before they are rounded. -/
theorem denotes_round {m : ℕ} (pos : 0 < m) (e : ℤ) :
    Denotes (UnpackedFloat.round .binary64 .positive m e) (nearest (m * 2 ^ e)) := by
  obtain ⟨k, room⟩ : ∃ k : ℕ, k = (e - Format.binary64.targetExponent (totalExponent m e)).toNat :=
    ⟨_, rfl⟩
  have rounded : UnpackedFloat.round .binary64 .positive m e =
      roundWithAccuracy .binary64 .positive (m <<< k) (e - k) .exact := by
    simp only [UnpackedFloat.round, decreaseExponent, room]
  have moved : (m * 2 ^ e : ℚ) = (m <<< k : ℕ) * 2 ^ (e - k) := by
    rw [Nat.shiftLeft_eq, zpow_sub₀ two_ne_zero, zpow_natCast]
    push_cast
    field_simp
  have enough : 52 ≤ m.log2 + k ∨ e - k ≤ -1074 := by
    simp only [Format.targetExponent, totalExponent, Format.mantissaBits,
      Format.minExponent] at room
    norm_num at room
    omega
  rw [rounded, moved]
  refine denotes_roundExact (Nat.shiftLeft_pos_iff.mpr pos) (enough.imp_left fun full => ?_)
  calc 2 ^ 52 ≤ 2 ^ (m.log2 + k) := Nat.pow_le_pow_right two_pos full
    _ = 2 ^ m.log2 * 2 ^ k := pow_add ..
    _ ≤ m * 2 ^ k := by
      gcongr
      exact Nat.log2_self_le pos.ne'
    _ = m <<< k := (Nat.shiftLeft_eq m k).symm

/-- A whole number of places is rounded to the nearest number. -/
theorem denotes_normalize (n : ℕ) (e : ℤ) :
    Denotes (UnpackedFloat.normalize .binary64 n e .positive) (nearest (n * 2 ^ e)) := by
  unfold UnpackedFloat.normalize
  rcases Nat.eq_zero_or_pos n with rfl | pos
  · simp only [Nat.cast_zero, zero_mul, nearest_zero]
    exact rfl
  · rw [compare_gt_iff_gt.mpr (by exact_mod_cast pos)]
    exact denotes_round pos e

theorem denotes_ofNat (n : ℕ) : Denotes (UnpackedFloat.ofNat .binary64 n) (nearest n) := by
  have := denotes_normalize n 0
  rwa [zpow_zero, mul_one] at this

end Arithmetic

end Cadence.Nearest
