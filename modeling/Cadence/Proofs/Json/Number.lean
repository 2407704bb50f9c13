import Cadence.Json.Printer
import Cadence.Json.Reader
import Cadence.Proofs.Decimal.Plain

/-!
# JSON numbers read back

The parts of a number text are read back from the way they are written, if something stands behind
them that continues no number. What they are worth is exact: an integer is itself, and the digits of
a double are the double.
-/

namespace Cadence.Json

open Decimal Nearest Text

/-- What may stand behind a value: nothing, a comma or a line break. -/
def Ends (rest : List Char) : Prop := ∀ c ∈ rest.head?, c = ',' ∨ c = '\n'

namespace NumberText

variable {rest : List Char}

/-- The digits behind the point, with the point. -/
def fractionChars : List Char → List Char
  | [] => []
  | c :: rest => '.' :: c :: rest

/-- The mark and the digits of an exponent; a sign is always written. -/
def exponentChars : Option Int → List Char
  | none => []
  | some e => 'e' :: (if e < 0 then '-' else '+') :: Nat.toDigits 10 e.natAbs

/-- The way the parts of a number text are written. -/
def chars (t : NumberText) : List Char :=
  (if t.negative then ['-'] else []) ++
    (t.whole ++ (fractionChars t.fraction ++ exponentChars t.exponent))

/-- Parts that can be told from the way they are written. -/
structure Proper (t : NumberText) : Prop where
  digits : ∀ c ∈ t.whole, c.isDigit
  nonempty : t.whole ≠ []
  first : t.whole.head? = some '0' → t.whole.length ≤ 1
  fraction : ∀ c ∈ t.fraction, c.isDigit

theorem exponentPart_append (exponent : Option Int) (ends : Ends rest) :
    exponentPart (exponentChars exponent ++ rest) = some (exponent, rest) := by
  cases exponent with
  | none =>
    cases rest with
    | nil => rfl
    | cons c rest =>
      have plain : ¬ (c = 'e' ∨ c = 'E') := by
        rcases ends c rfl with rfl | rfl <;> decide
      exact if_neg plain
  | some e =>
    have all : ∀ c ∈ Nat.toDigits 10 e.natAbs, c.isDigit = true := fun _ =>
      Nat.isDigit_of_mem_toDigits (by decide) (by decide)
    have stops : ∀ c ∈ rest.head?, c.isDigit = false := by
      intro c first
      rcases ends c first with rfl | rfl <;> rfl
    have cut : (Nat.toDigits 10 e.natAbs ++ rest).span Char.isDigit =
        (Nat.toDigits 10 e.natAbs, rest) := span_eq_iff.mpr ⟨rfl, all, stops⟩
    have value : digitsValue 0 (Nat.toDigits 10 e.natAbs) = e.natAbs :=
      Nat.ofDigitChars_ten_toDigits
    have digits : Nat.toDigits 10 e.natAbs ≠ [] := Nat.toDigits_ne_nil
    have sign : splitSign ((if e < 0 then '-' else '+') :: (Nat.toDigits 10 e.natAbs ++ rest)) =
        (decide (e < 0), Nat.toDigits 10 e.natAbs ++ rest) := by
      by_cases negative : e < 0
      · rw [if_pos negative, decide_eq_true negative]
        rfl
      · rw [if_neg negative, decide_eq_false negative]
        rfl
    have worth : (if decide (e < 0) = true then -(e.natAbs : Int) else e.natAbs) = e := by
      by_cases negative : e < 0
      · rw [if_pos (decide_eq_true negative)]
        omega
      · rw [if_neg (by simpa using negative)]
        omega
    simp only [exponentChars, List.cons_append, exponentPart, true_or, if_true, sign, cut, value,
      if_neg digits, worth]

/-- No part behind the digits begins with a digit. -/
theorem exponentChars_stops (exponent : Option Int) (ends : Ends rest) :
    ∀ c ∈ (exponentChars exponent ++ rest).head?, c.isDigit = false ∧ c ≠ '.' := by
  intro c first
  cases exponent with
  | none =>
    rcases ends c first with rfl | rfl <;> decide
  | some e =>
    cases first
    decide

theorem fractionChars_stops (fraction : List Char) (exponent : Option Int) (ends : Ends rest) :
    ∀ c ∈ (fractionChars fraction ++ (exponentChars exponent ++ rest)).head?, c.isDigit = false := by
  intro c first
  cases fraction with
  | nil => exact (exponentChars_stops exponent ends c first).1
  | cons d ds =>
    cases first
    rfl

theorem fractionPart_append {fraction : List Char} (digits : ∀ c ∈ fraction, c.isDigit)
    (exponent : Option Int) (ends : Ends rest) :
    fractionPart (fractionChars fraction ++ (exponentChars exponent ++ rest)) =
      some (fraction, exponentChars exponent ++ rest) := by
  have stops := exponentChars_stops exponent ends
  cases fraction with
  | nil =>
    simp only [fractionChars, List.nil_append]
    unfold fractionPart
    split
    next same => exact absurd rfl (stops '.' (by rw [same]; rfl)).2
    next => rfl
  | cons d ds =>
    have cut : (d :: ds ++ (exponentChars exponent ++ rest)).span Char.isDigit =
        (d :: ds, exponentChars exponent ++ rest) :=
      span_eq_iff.mpr ⟨rfl, digits, fun c first => (stops c first).1⟩
    show fractionPart ('.' :: (d :: ds ++ (exponentChars exponent ++ rest))) = _
    simp only [fractionPart, cut, reduceCtorEq, if_false]

theorem minusPart_append (negative : Bool) {body : List Char}
    (unsigned : ∀ c ∈ body.head?, c.isDigit = true) :
    minusPart ((if negative then ['-'] else []) ++ body) = (negative, body) := by
  cases negative with
  | true => rfl
  | false =>
    simp only [Bool.false_eq_true, if_false, List.nil_append]
    unfold minusPart
    split
    next => exact absurd (unsigned '-' rfl) (by decide)
    next => rfl

/-- The parts of a number text are read back. -/
theorem numberText?_append {t : NumberText} (proper : t.Proper) (ends : Ends rest) :
    numberText? (t.chars ++ rest) = some (t, rest) := by
  obtain ⟨negative, whole, fraction, exponent⟩ := t
  obtain ⟨digits, nonempty, first, digits'⟩ := proper
  dsimp only at digits nonempty first digits'
  have cut : (whole ++ (fractionChars fraction ++ (exponentChars exponent ++ rest))).span
      Char.isDigit = (whole, fractionChars fraction ++ (exponentChars exponent ++ rest)) :=
    span_eq_iff.mpr ⟨rfl, digits, fractionChars_stops fraction exponent ends⟩
  have whole' : ¬ (whole = [] ∨ whole.head? = some '0' ∧ 1 < whole.length) := by
    rintro (none | ⟨zero, more⟩)
    · exact nonempty none
    · exact absurd (first zero) (not_le.mpr more)
  have unsigned : ∀ c ∈ (whole ++
      (fractionChars fraction ++ (exponentChars exponent ++ rest))).head?, c.isDigit = true := by
    intro c here
    rw [List.head?_append_of_ne_nil _ nonempty] at here
    exact digits c (List.mem_of_head? here)
  have front : (⟨negative, whole, fraction, exponent⟩ : NumberText).chars ++ rest =
      (if negative then ['-'] else []) ++
        (whole ++ (fractionChars fraction ++ (exponentChars exponent ++ rest))) := by
    simp only [chars, List.append_assoc]
  unfold numberText?
  simp only [front, minusPart_append negative unsigned, cut, if_neg whole',
    fractionPart_append digits' exponent ends, exponentPart_append exponent ends,
    Option.bind_eq_bind, Option.bind_some]

end NumberText

/-- The digits of a positive number do not begin with zero. -/
theorem head?_toDigits_ne_zero {n : ℕ} (pos : 0 < n) : (Nat.toDigits 10 n).head? ≠ some '0' := by
  induction n using Nat.strong_induction_on with
  | _ n ih =>
    by_cases small : n < 10
    · have digit : ∀ n ∈ List.range 10, 0 < n → (Nat.toDigits 10 n).head? ≠ some '0' := by decide
      exact digit n (List.mem_range.mpr small) pos
    · rw [Nat.toDigits_of_base_le (by norm_num) (by omega),
        List.head?_append_of_ne_nil _ Nat.toDigits_ne_nil]
      exact ih (n / 10) (by omega) (by omega)

theorem length_le_one_of_head?_toDigits {n : ℕ} (zero : (Nat.toDigits 10 n).head? = some '0') :
    (Nat.toDigits 10 n).length ≤ 1 := by
  rcases Nat.eq_zero_or_pos n with rfl | pos
  · decide
  · exact absurd zero (head?_toDigits_ne_zero pos)

section Integer

variable {n : ℤ}

/-- The parts of an integer. -/
def NumberText.ofInt (n : ℤ) : NumberText := ⟨decide (n < 0), Nat.toDigits 10 n.natAbs, [], none⟩

theorem NumberText.proper_ofInt (n : ℤ) : (NumberText.ofInt n).Proper where
  digits := fun _ => Nat.isDigit_of_mem_toDigits (by norm_num) le_rfl
  nonempty := Nat.toDigits_ne_nil
  first := length_le_one_of_head?_toDigits
  fraction := by simp [NumberText.ofInt]

theorem integer_eq (n : ℤ) : integer n = (NumberText.ofInt n).chars := by
  cases n with
  | ofNat n =>
    have nonneg : ¬ Int.ofNat n < 0 := not_lt.mpr (Int.natCast_nonneg n)
    simp only [integer, NumberText.ofInt, NumberText.chars, NumberText.fractionChars,
      NumberText.exponentChars, decide_eq_false nonneg, Bool.false_eq_true, if_false,
      List.append_nil, List.nil_append]
    rfl
  | negSucc n =>
    have negative : Int.negSucc n < 0 := Int.negSucc_lt_zero n
    simp only [integer, NumberText.ofInt, NumberText.chars, NumberText.fractionChars,
      NumberText.exponentChars, decide_eq_true negative, if_true, List.append_nil]
    rfl

/-- An integer of 64 bits, with sign or without, is worth itself. -/
theorem exactNumber_ofInt (low : Int64.minValue.toInt ≤ n) (high : n < UInt64.size) :
    exactNumber (.ofInt n) = some (.int n) := by
  have value : digitsValue 0 (Nat.toDigits 10 n.natAbs) = n.natAbs := Nat.ofDigitChars_ten_toDigits
  have integer : (NumberText.ofInt n).integer? = some n := by
    simp only [NumberText.integer?, NumberText.ofInt, value]
    by_cases negative : n < 0
    · have bounds : 0 < n.natAbs ∧ Int64.minValue.toInt ≤ -(n.natAbs : ℤ) := by
        omega
      simp only [ne_eq, not_true_eq_false, Option.isSome_none, Bool.false_eq_true, or_self, if_false,
        decide_eq_true negative, if_true, if_pos bounds, Option.some.injEq]
      omega
    · have bound : n.natAbs < UInt64.size := by omega
      simp only [ne_eq, not_true_eq_false, Option.isSome_none, Bool.false_eq_true, or_self, if_false,
        decide_eq_false negative, if_pos bound, Option.some.injEq]
      omega
  rw [exactNumber, integer]

end Integer

section Floating

variable {v : ℚ} {s : List Char}

/-- What the digits and the exponent of a number text stand for. -/
def NumberText.worth (t : NumberText) : ℚ :=
  Nat.ofDigitChars 10 (t.whole ++ t.fraction) 0 * 10 ^ (t.exponent.getD 0 - t.fraction.length : ℤ)

/-- A text without a sign that is no integer and stands for a number. -/
def WritesFloat (s : List Char) (v : ℚ) : Prop :=
  ∃ t : NumberText, t.negative = false ∧ t.Proper ∧ (t.fraction ≠ [] ∨ t.exponent.isSome) ∧
    s = t.chars ∧ t.worth = v

theorem isDigit_of_mem_zero : ∀ c ∈ ['0'], c.isDigit := List.forall_mem_singleton.mpr rfl

theorem writesFloat_zero : WritesFloat ['0', '.', '0'] 0 := by
  refine ⟨⟨false, ['0'], ['0'], none⟩, rfl,
    ⟨isDigit_of_mem_zero, List.cons_ne_nil _ _, fun _ => le_rfl, isDigit_of_mem_zero⟩,
    Or.inl (List.cons_ne_nil _ _), rfl, ?_⟩
  simp [NumberText.worth, Nat.ofDigitChars]

/-- The digits of a decimal. -/
theorem ofDigitChars_digits (d : Decimal) : Nat.ofDigitChars 10 d.digits 0 = d.coefficient :=
  Nat.ofDigitChars_ten_toDigits

variable {d : Decimal}

theorem head?_digits_ne_zero (nonzero : d.coefficient ≠ 0) {front : List Char} (nonempty : front ≠ [])
    {back : List Char} (cut : d.digits = front ++ back) : front.head? ≠ some '0' := by
  intro zero
  refine head?_toDigits_ne_zero (Nat.pos_of_ne_zero nonzero) ?_
  rw [show Nat.toDigits 10 d.coefficient = d.digits from rfl, cut,
    List.head?_append_of_ne_nil _ nonempty, zero]

/-- Integers keep one place behind the point. -/
theorem writesFloat_whole (nonzero : d.coefficient ≠ 0) (whole : 0 ≤ d.exponent) :
    WritesFloat (d.positional ++ ['.', '0']) d.toRat := by
  obtain ⟨n, exponent⟩ := Int.eq_ofNat_of_zero_le whole
  have length : 0 < d.digits.length := List.length_pos_iff.mpr Nat.toDigits_ne_nil
  have text : d.positional = d.digits ++ zeros n := by
    have point : d.point = d.digits.length + n := by rw [point, exponent]
    have behind : (d.point - d.digits.length).toNat = n := by omega
    simp only [positional]
    rw [if_neg nonzero, if_neg (by omega), if_pos (by omega), behind]
  have digit : ∀ c ∈ d.digits ++ zeros n, c.isDigit := fun c member =>
    (List.mem_append.mp member).elim isDigit_of_mem_digits isDigit_of_mem_zeros
  refine ⟨⟨false, d.digits ++ zeros n, ['0'], none⟩, rfl,
    ⟨digit, List.append_ne_nil_of_left_ne_nil Nat.toDigits_ne_nil _, ?_, isDigit_of_mem_zero⟩,
    Or.inl (List.cons_ne_nil _ _), by rw [text]; rfl, ?_⟩
  · intro zero
    have nonempty : d.digits ≠ [] := Nat.toDigits_ne_nil
    dsimp only at zero
    rw [List.head?_append_of_ne_nil _ nonempty] at zero
    exact absurd zero (head?_toDigits_ne_zero (Nat.pos_of_ne_zero nonzero))
  · have digits : Nat.ofDigitChars 10 ((d.digits ++ zeros n) ++ ['0']) 0 =
        10 ^ (n + 1) * d.coefficient := by
      have back : zeros n ++ ['0'] = zeros (n + 1) := List.replicate_succ'.symm
      rw [List.append_assoc, back, Nat.ofDigitChars_append, ofDigitChars_digits, zeros,
        Nat.ofDigitChars_replicate_zero]
    simp only [NumberText.worth, digits, Option.getD_none, List.length_singleton]
    rw [toRat, exponent, zpow_natCast]
    push_cast
    rw [zpow_neg_one, pow_succ]
    field_simp

theorem NumberText.chars_fraction (whole : List Char) {fraction : List Char}
    (nonempty : fraction ≠ []) :
    NumberText.chars ⟨false, whole, fraction, none⟩ = whole ++ '.' :: fraction := by
  obtain ⟨c, rest, rfl⟩ := List.exists_cons_of_ne_nil nonempty
  simp [NumberText.chars, NumberText.fractionChars, NumberText.exponentChars]

/-- Digits with zeros between the point and them. -/
theorem writesFloat_front (low : d.point ≤ 0) :
    WritesFloat ('0' :: '.' :: (zeros (-d.point).toNat ++ d.digits)) d.toRat := by
  have point : d.point = d.digits.length + d.exponent := rfl
  obtain ⟨n, places⟩ : ∃ n, n = (-d.point).toNat := ⟨_, rfl⟩
  rw [← places]
  have digit : ∀ c ∈ zeros n ++ d.digits, c.isDigit := fun c member =>
    (List.mem_append.mp member).elim isDigit_of_mem_zeros isDigit_of_mem_digits
  have nonempty : zeros n ++ d.digits ≠ [] :=
    List.append_ne_nil_of_right_ne_nil _ Nat.toDigits_ne_nil
  have value : Nat.ofDigitChars 10 (['0'] ++ (zeros n ++ d.digits)) 0 = d.coefficient := by
    have front : ['0'] ++ zeros n = zeros (n + 1) := List.replicate_succ.symm
    rw [← List.append_assoc, front, Nat.ofDigitChars_append, zeros,
      Nat.ofDigitChars_replicate_zero, mul_zero, ofDigitChars_digits]
  have size : (0 - (zeros n ++ d.digits).length : ℤ) = d.exponent := by
    simp only [zeros, List.length_append, List.length_replicate]
    omega
  refine ⟨⟨false, ['0'], zeros n ++ d.digits, none⟩, rfl,
    ⟨isDigit_of_mem_zero, List.cons_ne_nil _ _, fun _ => le_rfl, digit⟩, Or.inl nonempty,
    (NumberText.chars_fraction ['0'] nonempty).symm, ?_⟩
  simp only [NumberText.worth, value, Option.getD_none, size, toRat]

/-- Digits with the point among them. -/
theorem writesFloat_among (nonzero : d.coefficient ≠ 0) (high : 0 < d.point)
    (fraction : d.point < d.digits.length) :
    WritesFloat (d.digits.take d.point.toNat ++ '.' :: d.digits.drop d.point.toNat) d.toRat := by
  have point : d.point = d.digits.length + d.exponent := rfl
  obtain ⟨n, places⟩ : ∃ n, n = d.point.toNat := ⟨_, rfl⟩
  rw [← places]
  have divided : d.digits.take n ++ d.digits.drop n = d.digits := List.take_append_drop n d.digits
  have before : d.digits.take n ≠ [] := by
    intro none
    rcases List.take_eq_nil_iff.mp none with none | none
    · omega
    · exact Nat.toDigits_ne_nil none
  have behind : d.digits.drop n ≠ [] := by
    rw [Ne, List.drop_eq_nil_iff]
    omega
  have size : (0 - (d.digits.drop n).length : ℤ) = d.exponent := by
    rw [List.length_drop]
    omega
  refine ⟨⟨false, d.digits.take n, d.digits.drop n, none⟩, rfl,
    ⟨fun c member => isDigit_of_mem_digits (List.mem_of_mem_take member), before, ?_,
      fun c member => isDigit_of_mem_digits (List.mem_of_mem_drop member)⟩, Or.inl behind,
    (NumberText.chars_fraction _ behind).symm, ?_⟩
  · exact fun zero => absurd zero (head?_digits_ne_zero nonzero before divided.symm)
  · simp only [NumberText.worth, divided, ofDigitChars_digits, Option.getD_none, size, toRat]

/-- Digits that do not end before the point. -/
theorem writesFloat_point (nonzero : d.coefficient ≠ 0) (fraction : d.exponent < 0) :
    WritesFloat d.positional d.toRat := by
  have point : d.point = d.digits.length + d.exponent := rfl
  simp only [positional]
  rw [if_neg nonzero]
  split_ifs with front back
  · exact writesFloat_front front
  · omega
  · exact writesFloat_among nonzero (not_le.mp front) (not_le.mp back)

/-- One digit in front of the point, and an exponent. -/
theorem writesFloat_scientific (d : Decimal) : WritesFloat d.scientific d.toRat := by
  obtain ⟨c, rest, same⟩ := List.exists_cons_of_ne_nil
    (Nat.toDigits_ne_nil : Nat.toDigits 10 d.coefficient ≠ [])
  have same : d.digits = c :: rest := same
  have digit : ∀ e ∈ c :: rest, e.isDigit := by
    rw [← same]
    exact fun e => isDigit_of_mem_digits
  refine ⟨⟨false, [c], rest, some (d.point - 1)⟩, rfl,
    ⟨fun e member => digit e (List.mem_cons.mpr (Or.inl (List.mem_singleton.mp member))),
      List.cons_ne_nil _ _, fun _ => le_rfl, fun e member => digit e (List.mem_cons_of_mem _ member)⟩,
    Or.inr rfl, ?_, ?_⟩
  · simp only [scientific, same, NumberText.chars, NumberText.exponentChars, Bool.false_eq_true,
      if_false, List.nil_append]
    cases rest with
    | nil => rfl
    | cons e rest => rfl
  · have size : (d.point - 1 - rest.length : ℤ) = d.exponent := by
      rw [point, same, List.length_cons]
      push_cast
      ring
    simp only [NumberText.worth, List.singleton_append, ← same, ofDigitChars_digits,
      Option.getD_some, size, toRat]

/-- Every layout of a JSON number stands for the same decimal. -/
theorem writesFloat_jsonNumber (d : Decimal) : WritesFloat d.jsonNumber d.toRat := by
  simp only [jsonNumber]
  split_ifs with none whole near
  · have zero : d.toRat = 0 := by rw [toRat, none, Nat.cast_zero, zero_mul]
    rw [zero]
    exact writesFloat_zero
  · rw [Bool.and_eq_true, decide_eq_true_eq] at whole
    exact writesFloat_whole none whole.1
  · simp only [Bool.and_eq_true, decide_eq_true_eq] at whole near
    exact writesFloat_point none (by omega)
  · exact writesFloat_scientific d

/-- A text that stands for a number that is rounded to a double is read as the double. -/
theorem exactNumber_of_worth {t : NumberText} {y : Float}
    (floating : t.fraction ≠ [] ∨ t.exponent.isSome) (number : IsNumber y v) (large : v < 2 ^ 1024)
    (rounded : nearest t.worth = v) :
    exactNumber t = some (.float (if t.negative then -y else y)) := by
  have digits : digitsValue (digitsValue 0 t.whole) t.fraction =
      Nat.ofDigitChars 10 (t.whole ++ t.fraction) 0 := by
    rw [Nat.ofDigitChars_append]
    rfl
  have rounds : Rounds y t.worth :=
    ⟨fun _ => rounded ▸ number, fun infinite => absurd (rounded ▸ large) (not_lt.mpr infinite)⟩
  have same : toDouble (Nat.ofDigitChars 10 (t.whole ++ t.fraction) 0)
      (t.exponent.getD 0 - t.fraction.length) = y := (rounds_toDouble _ _).unique rounds
  have integer : t.integer? = none := if_pos floating
  rw [exactNumber, integer]
  simp only [digits, same, NumberText.signed, if_pos (IsNumber.isFinite number)]

/-- The text of a finite float is a number text that is worth the float. -/
theorem exists_json_eq_chars {x : Float} (finite : x.isFinite) :
    ∃ t : NumberText, t.Proper ∧ (Decimal.json x).toList = t.chars ∧
      exactNumber t = some (.float x) := by
  obtain ⟨negative, y, body, rfl, text, digits⟩ :=
    exists_write ['0', '.', '0'] (fun m e => (shortest .toEven m e).jsonNumber) finite
  obtain ⟨v, worth, writes, rounded, large, number⟩ : ∃ v worth, WritesFloat body worth ∧
      nearest worth = v ∧ v < 2 ^ 1024 ∧ IsNumber y v := by
    rcases digits with ⟨number, rfl⟩ | ⟨m, e, pos, canonical, large, number, rfl⟩
    · exact ⟨0, 0, writesFloat_zero, nearest_zero, by norm_num, number⟩
    · exact ⟨_, _, writesFloat_jsonNumber _, nearest_shortest canonical pos .toEven,
        canonical.lt_two_pow large, number⟩
  obtain ⟨⟨_, whole, fraction, exponent⟩, rfl, proper, floating, rfl, rfl⟩ := writes
  refine ⟨⟨negative, whole, fraction, exponent⟩,
    ⟨proper.digits, proper.nonempty, proper.first, proper.fraction⟩, ?_,
    exactNumber_of_worth floating number large rounded⟩
  rw [Decimal.json, if_pos finite, String.toList_ofList, text]
  rfl

end Floating

end Cadence.Json
