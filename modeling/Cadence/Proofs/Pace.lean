import Cadence.Pace
import Cadence.Proofs.Decimal.Shortest
import Cadence.Proofs.Quantity.Whole
import Cadence.Quantity.Exact

/-!
# The precision of the pace

The time between two arrivals is the reciprocal of the rate, rounded twice: to a number in floating
point and to a whole number of nanoseconds. Both errors together are so small that a period is never
off by a nanosecond, and that a second is missed by five microseconds at most when as many periods
are taken as the rate says, however large or small the rate is. Both roundings keep order, so the
limits for rates are limits for periods.
-/

namespace Cadence

namespace Nearest

open Float.Model hiding pack unpack
open Float.Model.UnpackedFloat

theorem roundDiv_toEven (numerator : ℕ) {denominator : ℕ} (pos : 0 < denominator) :
    Decimal.roundDiv numerator denominator .toEven = toEven (numerator / denominator) := by
  obtain ⟨rest, same⟩ : ∃ rest, numerator % denominator = rest := ⟨_, rfl⟩
  have proper : rest < denominator := same ▸ Nat.mod_lt numerator pos
  have pos' : (0 : ℚ) < denominator := by exact_mod_cast pos
  have parts : (numerator / denominator : ℚ) =
      (numerator / denominator : ℕ) + rest / denominator := by
    have whole := Nat.div_add_mod numerator denominator
    rw [same] at whole
    rw [div_eq_iff pos'.ne', add_mul, div_mul_cancel₀ _ pos'.ne', mul_comm]
    exact_mod_cast whole.symm
  have below : (rest / denominator : ℚ) < 1 := by
    rw [div_lt_one pos']
    exact_mod_cast proper
  rw [parts, toEven_add _ (by positivity) below]
  simp only [Decimal.roundDiv, same]
  rcases lt_trichotomy (2 * rest) denominator with less | half | more
  · have less' : (rest / denominator : ℚ) < 1 / 2 := by
      rw [div_lt_div_iff₀ pos' two_pos]
      exact_mod_cast (by omega : rest * 2 < 1 * denominator)
    rw [if_pos less', Nat.compare_eq_lt.mpr less]
    rfl
  · have half' : (rest / denominator : ℚ) = 1 / 2 := by
      rw [div_eq_div_iff pos'.ne' two_ne_zero]
      exact_mod_cast (by omega : rest * 2 = 1 * denominator)
    rw [half', if_neg (lt_irrefl _), if_neg (lt_irrefl _), Nat.compare_eq_eq.mpr half]
    rcases Nat.mod_two_eq_zero_or_one (numerator / denominator) with even | odd
    · simp [Decimal.Tie.roundsUp, even]
    · simp [Decimal.Tie.roundsUp, odd]
  · have more' : (1 / 2 : ℚ) < rest / denominator := by
      rw [div_lt_div_iff₀ two_pos pos']
      exact_mod_cast (by omega : 1 * denominator < rest * 2)
    rw [if_neg more'.not_gt, if_pos more', Nat.compare_eq_gt.mpr more]
    rfl

/-- A number of seconds is rounded to the nearest nanosecond. -/
theorem nanos_ofSeconds {x : Float} {v : ℚ} (h : IsNumber x v) :
    (Duration.ofSeconds x).nanos = toEven (v * 10 ^ 9) := by
  unfold IsNumber at h
  unfold Duration.ofSeconds
  generalize x.toModel.unpack = u at h ⊢
  match u, h with
  | .zero .positive, h =>
    have none : toEven 0 = 0 := by simpa using toEven_natCast 0
    rw [show v = 0 from h, zero_mul, none]
    rfl
  | .finite .positive m e pos, ⟨_, value⟩ =>
    have powers := zpow_eq_powers 2 e
    dsimp only
    rw [roundDiv_toEven _ (Decimal.powerBelow_pos two_pos e), value]
    congr 1
    push_cast at powers ⊢
    rw [powers]
    ring

/-- A number of seconds that is not negative is a length of time, up to billions of years. -/
theorem ofSeconds?_eq {x : Float} {v : ℚ} (h : IsNumber x v) (few : v ≤ 2 ^ 63) :
    Duration.ofSeconds? x = .ok (Duration.ofSeconds x) := by
  have nonneg : ¬x < 0 := by
    rw [h.lt_iff isNumber_zero, not_lt]
    exact h.nonneg
  have nanos : (Duration.ofSeconds x).nanos ≤ 2 ^ 63 * 10 ^ 9 := by
    rw [nanos_ofSeconds h]
    calc toEven (v * 10 ^ 9) ≤ toEven ((2 ^ 63 * 10 ^ 9 : ℕ) : ℚ) :=
          toEven_mono (by push_cast; linarith)
      _ = 2 ^ 63 * 10 ^ 9 := toEven_natCast _
  have fits : (Duration.ofSeconds x).secs < UInt64.size := by
    rw [Duration.secs, UInt64.size]
    omega
  rw [Duration.ofSeconds?, if_neg nonneg, if_pos (by simp [h.isFinite, fits])]

/-- Numbers of normal size have all their digits in front of the last place that there is. -/
theorem lastPlace_of_normal {x : ℚ} (normal : 2 ^ (-1021 : ℤ) ≤ x) : -1074 < lastPlace x := by
  have pos : 0 < x := lt_of_lt_of_le (by positivity) normal
  have log : -1021 ≤ Int.log 2 x :=
    (Int.zpow_le_iff_le_log one_lt_two pos).mp (by exact_mod_cast normal)
  unfold lastPlace
  omega

end Nearest

namespace Pace

open Nearest

theorem isNumber_maxRate : IsNumber maxRate 10000 := by
  exact_mod_cast isNumber_natCast (by norm_num : 10000 < 2 ^ 53)

/-- The least rate is one arrival a day, which is no power of two. -/
theorem isNumber_minRate : IsNumber minRate (nearest (1 / 86400)) := by
  have day := isNumber_natCast (by norm_num : 86400 < 2 ^ 53)
  refine isNumber_one.div day (by norm_num) ?_
  calc nearest (1 / (86400 : ℕ)) ≤ 1 := nearest_le_one (by norm_num)
    _ < 2 ^ 1024 := one_lt_pow₀ one_lt_two (by norm_num)

variable {rate : Float} {period : Duration}

theorem two_zpow_le_minRate : (2 : ℚ) ^ (-17 : ℤ) ≤ nearest (1 / 86400) :=
  two_zpow_le_nearest (by norm_num) (by norm_num)

/-- What a rate that can be held is worth. -/
theorem exists_worth (h : inRange rate = true) :
    ∃ v, IsNumber rate v ∧ 2 ^ (-17 : ℤ) ≤ v ∧ v ≤ 10000 := by
  obtain ⟨least, most⟩ : minRate ≤ rate ∧ rate ≤ maxRate := by simpa [inRange] using h
  obtain ⟨v, worth⟩ := exists_isNumber_of_between isNumber_minRate
    (lt_of_lt_of_le (by positivity) two_zpow_le_minRate) isNumber_maxRate least most
  exact ⟨v, worth, two_zpow_le_minRate.trans ((isNumber_minRate.le_iff worth).mp least),
    (worth.le_iff isNumber_maxRate).mp most⟩

theorem one_div_le {v : ℚ} (least : 2 ^ (-17 : ℤ) ≤ v) : 1 / v ≤ 2 ^ 17 := by
  rw [div_le_iff₀ (lt_of_lt_of_le (by positivity) least)]
  calc (1 : ℚ) = 2 ^ 17 * 2 ^ (-17 : ℤ) := by norm_num
    _ ≤ 2 ^ 17 * v := by gcongr

/-- The reciprocal of a rate is a number of seconds. -/
theorem isNumber_reciprocal {v : ℚ} (worth : IsNumber rate v) (least : 2 ^ (-17 : ℤ) ≤ v) :
    IsNumber (1 / rate) (nearest (1 / v)) ∧ nearest (1 / v) ≤ 2 ^ 17 := by
  have pos : 0 < v := lt_of_lt_of_le (by positivity) least
  have rounded : nearest (1 / v) ≤ 2 ^ 17 := by
    exact_mod_cast nearest_le_two_zpow (e := 17) (by norm_num) (by exact_mod_cast one_div_le least)
  refine ⟨isNumber_one.div worth pos (rounded.trans_lt ?_), rounded⟩
  exact pow_lt_pow_right₀ one_lt_two (by norm_num)

/-- A rate that can be held has a period: its reciprocal is a length of time. -/
theorem period_of_inRange (held : inRange rate = true) :
    Pace.period rate = .ok (.ofSeconds (1 / rate)) := by
  obtain ⟨v, worth, least, -⟩ := exists_worth held
  obtain ⟨reciprocal, most⟩ := isNumber_reciprocal worth least
  rw [Pace.period, if_pos held, ofSeconds?_eq reciprocal (most.trans (by norm_num))]

theorem period_eq_ok_iff :
    Pace.period rate = .ok period ↔ inRange rate = true ∧ .ofSeconds (1 / rate) = period := by
  by_cases held : inRange rate = true
  · simp [period_of_inRange held, held]
  · simp [Pace.period, held]

/-- One arrival a second. -/
theorem period_one : Pace.period 1 = .ok (.ofSecs 1) := by
  rw [period_eq_ok_iff]
  decide +kernel

theorem ratOfFloat_pos (h : Pace.period rate = .ok period) : 0 < Quantity.ratOfFloat rate := by
  obtain ⟨v, worth, least, -⟩ := exists_worth (period_eq_ok_iff.mp h).1
  rw [worth.ratOfFloat_eq]
  exact lt_of_lt_of_le (by positivity) least

/-- The nanoseconds of the period of a rate with a given worth. -/
def roundedNanos (v : ℚ) : ℕ := toEven (nearest (1 / v) * 10 ^ 9)

/-- What the period of a rate comes to. -/
theorem nanos_period (h : Pace.period rate = .ok period) :
    ∃ v, IsNumber rate v ∧ 2 ^ (-17 : ℤ) ≤ v ∧ v ≤ 10000 ∧ period.nanos = roundedNanos v := by
  obtain ⟨held, rfl⟩ := period_eq_ok_iff.mp h
  obtain ⟨v, worth, least, most⟩ := exists_worth held
  exact ⟨v, worth, least, most, nanos_ofSeconds (isNumber_reciprocal worth least).1⟩

/-- Rounding the reciprocal changes it by a part of its own size. -/
theorem abs_nearest_reciprocal_sub_le {v : ℚ} (pos : 0 < v) (most : v ≤ 2 ^ 17) :
    |nearest (1 / v) - 1 / v| ≤ 1 / v / 2 ^ 53 := by
  refine abs_nearest_sub_le (by positivity) (lastPlace_of_normal ?_)
  calc (2 : ℚ) ^ (-1021 : ℤ) ≤ 2 ^ (-17 : ℤ) := zpow_le_zpow_right₀ one_le_two (by norm_num)
    _ = 1 / 2 ^ 17 := by norm_num
    _ ≤ 1 / v := one_div_le_one_div_of_le pos most

/-- A period is off by half a nanosecond and by what rounding the reciprocal takes. -/
theorem abs_roundedNanos_sub_le {v : ℚ} (pos : 0 < v) (most : v ≤ 10000) :
    |roundedNanos v - 10 ^ 9 / v| ≤ 1 / 2 + 10 ^ 9 / v / 2 ^ 53 := by
  have first := abs_nearest_reciprocal_sub_le pos (most.trans (by norm_num))
  have second : |(roundedNanos v : ℚ) - nearest (1 / v) * 10 ^ 9| ≤ 1 / 2 :=
    abs_toEven_sub_le (mul_nonneg (nearest_nonneg _) (by norm_num))
  calc |(roundedNanos v : ℚ) - 10 ^ 9 / v|
      = |roundedNanos v - nearest (1 / v) * 10 ^ 9 + (nearest (1 / v) - 1 / v) * 10 ^ 9| := by
        congr 1
        ring
    _ ≤ |roundedNanos v - nearest (1 / v) * 10 ^ 9| + |nearest (1 / v) - 1 / v| * 10 ^ 9 := by
        refine (abs_add_le _ _).trans_eq ?_
        rw [abs_mul, abs_of_pos (by norm_num : (0 : ℚ) < 10 ^ 9)]
    _ ≤ 1 / 2 + 1 / v / 2 ^ 53 * 10 ^ 9 := by gcongr
    _ = 1 / 2 + 10 ^ 9 / v / 2 ^ 53 := by ring

/-- As many periods as the rate says take a second, up to five microseconds. -/
theorem abs_period_mul_rate_sub_le (h : Pace.period rate = .ok period) :
    |period.nanos * Quantity.ratOfFloat rate - 10 ^ 9| ≤ 5001 := by
  obtain ⟨v, worth, least, most, nanos⟩ := nanos_period h
  have pos : 0 < v := lt_of_lt_of_le (by positivity) least
  have off := abs_roundedNanos_sub_le pos most
  rw [worth.ratOfFloat_eq, nanos]
  calc |(roundedNanos v : ℚ) * v - 10 ^ 9| = |(roundedNanos v - 10 ^ 9 / v) * v| := by
        rw [sub_mul, div_mul_cancel₀ _ pos.ne']
    _ = |roundedNanos v - 10 ^ 9 / v| * v := by rw [abs_mul, abs_of_pos pos]
    _ ≤ (1 / 2 + 10 ^ 9 / v / 2 ^ 53) * v := by gcongr
    _ = 1 / 2 * v + 10 ^ 9 / 2 ^ 53 := by field_simp
    _ ≤ 5001 := by linarith

/-- A period takes time. -/
theorem isZero_period (h : Pace.period rate = .ok period) : period.isZero = false := by
  have precise := abs_period_mul_rate_sub_le h
  cases zero : period.isZero with
  | false => rfl
  | true =>
    rw [Duration.isZero, beq_iff_eq] at zero
    rw [zero, Nat.cast_zero, zero_mul, zero_sub, abs_neg] at precise
    norm_num at precise

/-- A higher rate has no longer period. -/
theorem roundedNanos_antitone {v w : ℚ} (pos : 0 < v) (h : v ≤ w) :
    roundedNanos w ≤ roundedNanos v := by
  have reciprocals := nearest_mono (one_div_le_one_div_of_le pos h)
  exact toEven_mono (by gcongr)

/-- A whole number of nanoseconds that is less than half of one off is hit. -/
theorem roundedNanos_eq {v : ℚ} {n : ℕ} (near : |nearest (1 / v) * 10 ^ 9 - n| < 1 / 2) :
    roundedNanos v = n := by
  obtain ⟨above, below⟩ := abs_lt.mp near
  exact toEven_eq_of_near (mul_nonneg (nearest_nonneg _) (by norm_num)) (by linarith)
    (by linarith) fun _ => ⟨by linarith, by linarith⟩

/-- The period of the highest rate is a hundred microseconds. -/
theorem roundedNanos_maxRate : roundedNanos 10000 = 100000 := by
  have near := abs_le.mp (abs_nearest_reciprocal_sub_le (v := 10000) (by norm_num) (by norm_num))
  refine roundedNanos_eq (abs_lt.mpr ⟨?_, ?_⟩)
  · push_cast
    linarith [near.1]
  · push_cast
    linarith [near.2]

/-- The least rate is rounded, but its period is a day nevertheless. -/
theorem roundedNanos_minRate : roundedNanos (nearest (1 / 86400)) = 86400 * 10 ^ 9 := by
  obtain ⟨v, rounded⟩ : ∃ v, v = nearest (1 / 86400) := ⟨_, rfl⟩
  obtain ⟨low, high⟩ := abs_le.mp
    (abs_nearest_reciprocal_sub_le (v := 86400) (by norm_num) (by norm_num))
  rw [← rounded] at low high ⊢
  have pos : 0 < v := by linarith
  have day : 86400 - 1 / 10 ^ 10 ≤ 1 / v ∧ 1 / v ≤ 86400 + 1 / 10 ^ 10 := by
    rw [le_div_iff₀ pos, div_le_iff₀ pos]
    constructor <;> linarith
  obtain ⟨below, above⟩ := abs_le.mp
    (abs_nearest_reciprocal_sub_le pos (by linarith : v ≤ 2 ^ 17))
  refine roundedNanos_eq (abs_lt.mpr ⟨?_, ?_⟩)
  · push_cast
    linarith
  · push_cast
    linarith

/-- Rates that can be held are numbers between the limits. -/
theorem inRange_iff :
    inRange rate = true ↔ ∃ v, IsNumber rate v ∧ nearest (1 / 86400) ≤ v ∧ v ≤ 10000 := by
  constructor
  · intro held
    obtain ⟨v, worth, -, most⟩ := exists_worth held
    obtain ⟨least, -⟩ : minRate ≤ rate ∧ rate ≤ maxRate := by simpa [inRange] using held
    exact ⟨v, worth, (isNumber_minRate.le_iff worth).mp least, most⟩
  · rintro ⟨v, worth, least, most⟩
    simp [inRange, (isNumber_minRate.le_iff worth).mpr least,
      (worth.le_iff isNumber_maxRate).mpr most]

/-- What is no number, infinite, zero or negative is no rate that can be held. -/
theorem not_inRange (h : rate.isNaN = true ∨ rate.isInf = true ∨ rate ≤ 0) :
    inRange rate ≠ true := by
  intro held
  obtain ⟨v, worth, least, -⟩ := exists_worth held
  rcases h with none | endless | nonpos
  · have worth : Denotes rate.toModel.unpack v := worth
    have none : rate.toModel.unpack.isNaN = true := none
    generalize rate.toModel.unpack = u at worth none
    cases u <;> simp_all [Denotes, Float.Model.UnpackedFloat.isNaN]
  · have worth : Denotes rate.toModel.unpack v := worth
    have endless : rate.toModel.unpack.isInf = true := endless
    generalize rate.toModel.unpack = u at worth endless
    cases u <;> simp_all [Denotes, Float.Model.UnpackedFloat.isInf]
  · have := (worth.le_iff isNumber_zero).mp nonpos
    have : (0 : ℚ) < 2 ^ (-17 : ℤ) := by positivity
    linarith

/-- A rate has a period just if it lies between the limits, both included; the only other answer
names the rate, so that the reciprocal of a rate that is held is always a length of time. Periods
lie between a hundred microseconds and a day, are never a nanosecond off the reciprocal, and do not
grow with the rate. -/
theorem period_within_nanosecond (rate : Float) :
    ((∃ time, Pace.period rate = .ok time) ↔ minRate ≤ rate ∧ rate ≤ maxRate) ∧
    ((∃ time, Pace.period rate = .ok time) ↔
      ∃ v, IsNumber rate v ∧ nearest (1 / 86400) ≤ v ∧ v ≤ 10000) ∧
    (rate.isNaN = true ∨ rate.isInf = true ∨ rate ≤ 0 →
      Pace.period rate = .error (.invalid (.rate rate))) ∧
    (∀ fault, Pace.period rate = .error fault → fault = .invalid (.rate rate)) ∧
    ∀ time, Pace.period rate = .ok time →
      Duration.ofSeconds? (1 / rate) = .ok time ∧
      time.nanos = toEven (nearest (1 / Quantity.ratOfFloat rate) * 10 ^ 9) ∧
      100000 ≤ time.nanos ∧ time.nanos ≤ 86400 * 10 ^ 9 ∧ time.isZero = false ∧
      |(time.nanos : ℚ) - 10 ^ 9 / Quantity.ratOfFloat rate| ≤ 1 ∧
      ∀ higher shorter, rate ≤ higher → Pace.period higher = .ok shorter →
        shorter.nanos ≤ time.nanos := by
  have answered : (∃ time, Pace.period rate = .ok time) ↔ inRange rate = true :=
    ⟨fun ⟨_, found⟩ => (period_eq_ok_iff.mp found).1, fun held => ⟨_, period_of_inRange held⟩⟩
  have refused (out : inRange rate ≠ true) : Pace.period rate = .error (.invalid (.rate rate)) := by
    rw [Pace.period, if_neg out]
  refine ⟨?_, answered.trans inRange_iff, fun h => refused (not_inRange h), ?_, ?_⟩
  · rw [answered]
    simp [inRange]
  · intro fault found
    by_cases held : inRange rate = true
    · rw [period_of_inRange held] at found
      cases found
    · rw [refused held] at found
      cases found
      rfl
  · intro time found
    have held : inRange rate = true := (period_eq_ok_iff.mp found).1
    obtain ⟨v, worth, small, most, nanos⟩ := nanos_period found
    obtain ⟨w, same, least, -⟩ := inRange_iff.mp held
    obtain rfl : v = w := worth.ratOfFloat_eq.symm.trans same.ratOfFloat_eq
    have pos : 0 < v := lt_of_lt_of_le (by positivity) small
    have day := one_div_le small
    refine ⟨?_, ?_, ?_, ?_, isZero_period found, ?_, ?_⟩
    · obtain ⟨reciprocal, few⟩ := isNumber_reciprocal worth small
      rw [ofSeconds?_eq reciprocal (few.trans (by norm_num)), (period_eq_ok_iff.mp found).2]
    · rw [nanos, worth.ratOfFloat_eq, roundedNanos]
    · rw [nanos, ← roundedNanos_maxRate]
      exact roundedNanos_antitone pos most
    · rw [nanos, ← roundedNanos_minRate]
      exact roundedNanos_antitone (lt_of_lt_of_le (by positivity) two_zpow_le_minRate) least
    · rw [nanos, worth.ratOfFloat_eq]
      refine (abs_roundedNanos_sub_le pos most).trans ?_
      have part : 10 ^ 9 / v / 2 ^ 53 = 1 / v * (10 ^ 9 / 2 ^ 53) := by ring
      rw [part]
      linarith
    · intro higher shorter above other
      obtain ⟨w, worth', -, -, nanos'⟩ := nanos_period other
      rw [nanos, nanos']
      exact roundedNanos_antitone pos ((worth.le_iff worth').mp above)

/-- A third of a second is rounded down. -/
theorem period_within_nanosecond_third : ∃ time,
    Pace.period 3 = .ok time ∧ |(time.nanos : ℚ) - 10 ^ 9 / Quantity.ratOfFloat 3| ≤ 1 := by
  obtain ⟨answered, -, -, -, precise⟩ := period_within_nanosecond 3
  obtain ⟨time, found⟩ := answered.mpr (by decide +kernel)
  obtain ⟨-, -, -, -, -, near, -⟩ := precise time found
  exact ⟨time, found, near⟩

end Pace

end Cadence
