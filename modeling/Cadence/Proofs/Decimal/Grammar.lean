import Cadence.Proofs.Decimal.Reader
import Cadence.Proofs.Reading

/-!
# The grammar of number texts

A number text is a sign, which may be left out, in front of digits or of a word. Digits have at most
one point among them and an exponent behind them, which may be left out as well; the words are those
for infinity and for no number, in any letter case. These texts are read, digits as the double that
their number is rounded to, and no others are.
-/

namespace Cadence.Decimal

open Nearest Text

/-- A sign, which may be left out, and whether it is a minus. -/
inductive SignText : Bool → List Char → Prop
  | none : SignText false []
  | plus : SignText false ['+']
  | minus : SignText true ['-']

/-- Digits with at most one point among them: all the digits, of which there is at least one, and
how many of them stand behind the point. -/
inductive DigitsText : List Char → ℕ → List Char → Prop
  | whole {digits} (all : ∀ c ∈ digits, c.isDigit) (some : digits ≠ []) :
      DigitsText digits 0 digits
  | point {before behind} (all : ∀ c ∈ before ++ behind, c.isDigit) (some : before ++ behind ≠ []) :
      DigitsText (before ++ behind) behind.length (before ++ '.' :: behind)

/-- An exponent, which may be left out. -/
inductive ExponentText : ℤ → List Char → Prop
  | none : ExponentText 0 []
  | some {mark negative front digits} (letter : mark = 'e' ∨ mark = 'E')
      (sign : SignText negative front) (all : ∀ c ∈ digits, c.isDigit) (some : digits ≠ []) :
      ExponentText
        (if negative then -Nat.ofDigitChars 10 digits 0 else Nat.ofDigitChars 10 digits 0)
        (mark :: (front ++ digits))

/-- A word for what no digits name, in any letter case. -/
inductive WordText : Float → List Char → Prop
  | inf {s} (letters : s.map Char.toLower = "inf".toList) : WordText (1.0 / 0.0) s
  | infinity {s} (letters : s.map Char.toLower = "infinity".toList) : WordText (1.0 / 0.0) s
  | nan {s} (letters : s.map Char.toLower = "nan".toList) : WordText (0.0 / 0.0) s

/-- A number text without its sign. -/
inductive UnsignedText : Float → List Char → Prop
  | digits {x digits places exponent front back} (number : DigitsText digits places front)
      (power : ExponentText exponent back)
      (rounds : Rounds x (Nat.ofDigitChars 10 digits 0 * 10 ^ (exponent - places : ℤ))) :
      UnsignedText x (front ++ back)
  | word {x s} (word : WordText x s) : UnsignedText x s

/-- A number text and the double that it names. -/
inductive NumberText : Float → List Char → Prop
  | signed {x negative front body} (sign : SignText negative front)
      (unsigned : UnsignedText x body) : NumberText (if negative then -x else x) (front ++ body)

section Letters

variable {c : Char}

theorem isDigit_iff : c.isDigit ↔ 48 ≤ c.toNat ∧ c.toNat ≤ 57 := by
  simp [Char.isDigit, UInt32.le_iff_toNat_le]

theorem isAlpha_iff :
    c.isAlpha ↔ (65 ≤ c.toNat ∧ c.toNat ≤ 90) ∨ (97 ≤ c.toNat ∧ c.toNat ≤ 122) := by
  simp [Char.isAlpha, Char.isUpper, Char.isLower, UInt32.le_iff_toNat_le]

theorem isAlphanum_of_isDigit (digit : c.isDigit) : c.isAlphanum := by
  simp [Char.isAlphanum, digit]

theorem isAlphanum_of_isAlpha (letter : c.isAlpha) : c.isAlphanum := by
  simp [Char.isAlphanum, letter]

end Letters

section Sign

variable {s front body : List Char} {negative : Bool}

/-- What begins with a letter, a digit or a point is taken without a sign. -/
theorem splitSign_eq_self (unsigned : ∀ c ∈ s.head?, c.isAlphanum ∨ c = '.') :
    splitSign s = (false, s) := by
  unfold splitSign
  split
  next => exact absurd (unsigned '+' rfl) (by decide)
  next => exact absurd (unsigned '-' rfl) (by decide)
  next => rfl

theorem splitSign_digits (all : ∀ c ∈ s, c.isDigit) : splitSign s = (false, s) :=
  splitSign_eq_self fun c first => Or.inl (isAlphanum_of_isDigit (all c (List.mem_of_head? first)))

/-- A sign in front of what has none is cut off. -/
theorem splitSign_append (sign : SignText negative front)
    (unsigned : splitSign body = (false, body)) : splitSign (front ++ body) = (negative, body) := by
  cases sign with
  | none => exact unsigned
  | plus => rfl
  | minus => rfl

theorem exists_sign (h : splitSign s = (negative, body)) :
    ∃ front, SignText negative front ∧ s = front ++ body := by
  unfold splitSign at h
  split at h
  next =>
    cases h
    exact ⟨_, .plus, rfl⟩
  next =>
    cases h
    exact ⟨_, .minus, rfl⟩
  next =>
    cases h
    exact ⟨_, .none, rfl⟩

end Sign

section Digits

variable {s front back digits : List Char} {places : ℕ} {exponent : ℤ} {x : Float}

theorem readExponent?_eq_some_iff : readExponent? s = some exponent ↔ ExponentText exponent s := by
  constructor
  · intro h
    unfold readExponent? at h
    split at h
    next =>
      cases h
      exact .none
    next mark rest =>
      split_ifs at h with letter
      cases cut : splitSign rest with
      | mk negative digits =>
        obtain ⟨front, sign, rfl⟩ := exists_sign cut
        simp only [cut] at h
        split at h
        next all =>
          cases h
          exact .some letter sign (by simpa using all.2) all.1
        next => cases h
  · rintro (_ | ⟨letter, sign, all, some⟩)
    · rfl
    · unfold readExponent?
      simp only [splitSign_append sign (splitSign_digits all)]
      rw [if_pos letter, if_pos ⟨some, by simpa using all⟩, digitsValue_eq]

/-- An exponent does not continue digits. -/
theorem ExponentText.head (h : ExponentText exponent s) :
    ∀ c ∈ s.head?, c.isDigit = false ∧ c ≠ '.' := by
  obtain _ | ⟨rfl | rfl, -, -, -⟩ := h
  · simp
  · simp
  · simp

/-- Digits with an exponent are read whole. -/
theorem readDigits?_append (number : DigitsText digits places front)
    (power : ExponentText exponent back) :
    readDigits? (front ++ back) =
      some (toDouble (Nat.ofDigitChars 10 digits 0) (exponent - places)) := by
  have read := readExponent?_eq_some_iff.mpr power
  have stops : ∀ c ∈ back.head?, c.isDigit = false := fun c first => (power.head c first).1
  unfold readDigits?
  cases number with
  | whole all some =>
    rw [span_eq_iff.mpr ⟨rfl, all, stops⟩]
    simp only
    split
    next => exact absurd rfl (power.head '.' rfl).2
    next =>
      rw [if_neg (by simp [some]), read]
      rfl
  | @point before behind all some =>
    have digit : ∀ c ∈ before, c.isDigit := fun c member => all c (List.mem_append_left _ member)
    have digit' : ∀ c ∈ behind, c.isDigit := fun c member => all c (List.mem_append_right _ member)
    rw [List.append_assoc, List.cons_append, span_append_cons digit (by decide)]
    simp only [span_eq_iff.mpr ⟨rfl, digit', stops⟩]
    rw [if_neg (by simpa using some), read, Nat.ofDigitChars_append]
    rfl

/-- Only digits with an exponent are read. -/
theorem exists_of_readDigits? (h : readDigits? s = some x) :
    ∃ digits places exponent front back, DigitsText digits places front ∧
      ExponentText exponent back ∧ s = front ++ back ∧
      x = toDouble (Nat.ofDigitChars 10 digits 0) (exponent - places) := by
  unfold readDigits? at h
  cases cut : s.span Char.isDigit with
  | mk whole rest =>
    obtain ⟨rfl, all, -⟩ := span_eq_iff.mp cut
    simp only [cut] at h
    split at h
    next rest =>
      cases cut' : rest.span Char.isDigit with
      | mk part rest' =>
        obtain ⟨rfl, all', -⟩ := span_eq_iff.mp cut'
        simp only [cut'] at h
        split_ifs at h with none
        obtain ⟨exponent, read, rfl⟩ := Option.map_eq_some_iff.mp h
        refine ⟨whole ++ part, part.length, exponent, _, _, .point ?_ (by simpa using none),
          readExponent?_eq_some_iff.mp read, ?_, ?_⟩
        · exact fun c member => (List.mem_append.mp member).elim (all c) (all' c)
        · rw [List.append_assoc, List.cons_append]
        · rw [Nat.ofDigitChars_append]
          rfl
    next =>
      split_ifs at h with none
      obtain ⟨exponent, read, rfl⟩ := Option.map_eq_some_iff.mp h
      exact ⟨whole, 0, exponent, _, _, .whole all (by simpa using none),
        readExponent?_eq_some_iff.mp read, rfl, rfl⟩

end Digits

section Words

variable {s : List Char} {c : Char} {x : Float}

theorem readWord?_eq_some_iff : readWord? s = some x ↔ WordText x s := by
  have same (word : String) : String.ofList (s.map Char.toLower) = word ↔
      s.map Char.toLower = word.toList := by
    rw [← String.toList_inj, String.toList_ofList]
  unfold readWord?
  simp only [same]
  constructor
  · intro h
    split_ifs at h with infinite none
    · cases h
      exact infinite.elim .inf .infinity
    · cases h
      exact .nan none
  · rintro (letters | letters | letters)
    · rw [if_pos (Or.inl letters)]
    · rw [if_pos (Or.inr letters)]
    · rw [if_neg (by simp [letters]), if_pos letters]

end Words

section Characters

variable {s digits : List Char} {places : ℕ} {exponent : ℤ} {negative : Bool} {c : Char} {x : Float}

theorem SignText.mem (h : SignText negative s) (member : c ∈ s) : c = '+' ∨ c = '-' := by
  cases h with
  | none => cases member
  | plus => exact Or.inl (List.mem_singleton.mp member)
  | minus => exact Or.inr (List.mem_singleton.mp member)

theorem DigitsText.mem (h : DigitsText digits places s) (member : c ∈ s) :
    c.isAlphanum ∨ c = '.' := by
  cases h with
  | whole all some => exact Or.inl (isAlphanum_of_isDigit (all c member))
  | point all some =>
    rcases List.mem_append.mp member with member | _ | ⟨_, member⟩
    · exact Or.inl (isAlphanum_of_isDigit (all c (List.mem_append_left _ member)))
    · exact Or.inr rfl
    · exact Or.inl (isAlphanum_of_isDigit (all c (List.mem_append_right _ member)))

theorem DigitsText.exists_digit (h : DigitsText digits places s) : ∃ c ∈ s, c.isDigit := by
  cases h with
  | whole all some =>
    obtain ⟨c, member⟩ := List.exists_mem_of_ne_nil _ some
    exact ⟨c, member, all c member⟩
  | point all some =>
    obtain ⟨c, member⟩ := List.exists_mem_of_ne_nil _ some
    refine ⟨c, ?_, all c member⟩
    exact (List.mem_append.mp member).elim (List.mem_append_left _)
      fun behind => List.mem_append_right _ (List.mem_cons_of_mem _ behind)

theorem ExponentText.mem (h : ExponentText exponent s) (member : c ∈ s) :
    c.isAlphanum ∨ c = '+' ∨ c = '-' := by
  cases h with
  | none => cases member
  | some letter sign all some =>
    rcases member with _ | ⟨_, member⟩
    · rcases letter with rfl | rfl
      · exact Or.inl rfl
      · exact Or.inl rfl
    · rcases List.mem_append.mp member with member | member
      · exact Or.inr (sign.mem member)
      · exact Or.inl (isAlphanum_of_isDigit (all c member))

/-- Words consist of letters. -/
theorem WordText.mem (h : WordText x s) (member : c ∈ s) : c.isAlpha := by
  have lower : (s.map Char.toLower).all Char.isLower := by
    rcases h with (letters | letters | letters)
    · rw [letters]
      rfl
    · rw [letters]
      rfl
    · rw [letters]
      rfl
  rw [← Char.isLower_toLower_eq_isAlpha]
  exact List.all_eq_true.mp lower _ (List.mem_map_of_mem member)

/-- Number texts consist of letters, digits, points and signs. -/
theorem NumberText.mem (h : NumberText x s) (member : c ∈ s) :
    c.isAlphanum ∨ c = '.' ∨ c = '+' ∨ c = '-' := by
  obtain ⟨sign, unsigned⟩ := h
  rcases List.mem_append.mp member with member | member
  · exact Or.inr (Or.inr (sign.mem member))
  cases unsigned with
  | digits number power rounds =>
    rcases List.mem_append.mp member with member | member
    · exact (number.mem member).imp_right Or.inl
    · exact (power.mem member).imp_right Or.inr
  | word word => exact Or.inl (isAlphanum_of_isAlpha (word.mem member))

end Characters

section Read

variable {s : List Char} {x : Float}

theorem UnsignedText.splitSign (h : UnsignedText x s) : splitSign s = (false, s) := by
  refine splitSign_eq_self fun c first => ?_
  cases h with
  | digits number power rounds =>
    obtain ⟨digit, member, -⟩ := number.exists_digit
    rw [List.head?_append_of_ne_nil _ (List.ne_nil_of_mem member)] at first
    exact number.mem (List.mem_of_head? first)
  | word word => exact Or.inl (isAlphanum_of_isAlpha (word.mem (List.mem_of_head? first)))

/-- A word is not read as digits. -/
theorem readDigits?_word (word : WordText x s) : readDigits? s = none := by
  rw [Option.eq_none_iff_forall_not_mem]
  intro y read
  obtain ⟨digits, places, exponent, front, back, number, -, rfl, -⟩ := exists_of_readDigits? read
  obtain ⟨c, member, digit⟩ := number.exists_digit
  have letter := isAlpha_iff.mp (word.mem (List.mem_append_left back member))
  have := isDigit_iff.mp digit
  omega

theorem readUnsigned?_eq_some_iff :
    ((readDigits? s).orElse fun _ => readWord? s) = some x ↔ UnsignedText x s := by
  constructor
  · intro h
    cases read : readDigits? s with
    | none =>
      rw [read] at h
      exact .word (readWord?_eq_some_iff.mp h)
    | some y =>
      rw [read] at h
      cases h
      obtain ⟨digits, places, exponent, front, back, number, power, rfl, rfl⟩ :=
        exists_of_readDigits? read
      exact .digits number power (rounds_toDouble _ _)
  · rintro (⟨number, power, rounds⟩ | word)
    · rw [readDigits?_append number power, rounds.unique (rounds_toDouble _ _)]
      rfl
    · rw [readDigits?_word word]
      exact readWord?_eq_some_iff.mpr word

/-- Number texts are read, each as the double that it names, and no others are. -/
theorem readChars?_eq_some_iff : readChars? s = some x ↔ NumberText x s := by
  constructor
  · intro h
    unfold readChars? at h
    cases cut : splitSign s with
    | mk negative body =>
      obtain ⟨front, sign, rfl⟩ := exists_sign cut
      simp only [cut] at h
      obtain ⟨y, read, rfl⟩ := Option.map_eq_some_iff.mp h
      exact .signed sign (readUnsigned?_eq_some_iff.mp read)
  · rintro ⟨sign, unsigned⟩
    unfold readChars?
    simp only [splitSign_append sign unsigned.splitSign]
    rw [readUnsigned?_eq_some_iff.mpr unsigned]
    rfl

end Read

end Cadence.Decimal
