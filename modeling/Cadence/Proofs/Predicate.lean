import Cadence.Predicate
import Cadence.Proofs.Decimal.Plain
import Cadence.Proofs.Reading

/-!
# How predicates are read

A text is read as a predicate exactly if it can be divided, once its blanks are dropped, into an
aggregation, a comparison and the number text of a finite bound; a percentile has to lie within its
range. There is one way to divide it at most: no comparison begins within an aggregation, and no
number text continues a comparison. So a written predicate is read as the aggregation, the
comparison and the bound that were written.
-/

namespace Cadence

open Text

/-- An aggregation that can be read: a percentile lies from zero to a hundred. -/
def Aggregation.Readable (aggregation : Aggregation) : Prop :=
  ∀ p, aggregation = .percentile p → 0 ≤ p ∧ p ≤ 100

/-- A predicate that can be read: its aggregation can, and its bound is finite. -/
structure Predicate.Readable (predicate : Predicate) : Prop where
  aggregation : predicate.aggregation.Readable
  bound : predicate.bound.isFinite = true

/-- Number texts have no blanks and begin no comparison. -/
theorem clean_of_mem_numberText {s : List Char} {c : Char} {x : Float}
    (number : Decimal.NumberText x s) (member : c ∈ s) :
    isBlank c = false ∧ Predicate.isOperator c = false := by
  rcases number.mem member with letter | rfl | rfl | rfl
  · constructor
    · simp only [Char.isAlphanum, Bool.or_eq_true, Decimal.isAlpha_iff, Decimal.isDigit_iff]
        at letter
      simp [isBlank]
      omega
    · rw [← Bool.not_eq_true]
      intro operator
      simp only [Predicate.isOperator, Bool.or_eq_true, beq_iff_eq] at operator
      rcases operator with (rfl | rfl) | rfl <;> cases letter
  · decide
  · decide
  · decide

namespace Comparison

variable {s rest : List Char} {comparison : Comparison}

/-- A comparison is read up to where a bound begins. -/
theorem read?_symbol (comparison : Comparison) (bound : rest.head? ≠ some '=') :
    read? (comparison.symbol.toList ++ rest) = some (comparison, rest) := by
  cases comparison with
  | le => rfl
  | ge => rfl
  | eq => rfl
  | lt =>
    show read? ('<' :: rest) = _
    unfold read?
    split <;> simp_all
  | gt =>
    show read? ('>' :: rest) = _
    unfold read?
    split <;> simp_all

/-- Nothing but its symbol is read as a comparison. -/
theorem symbol_of_read? (h : read? s = some (comparison, rest)) :
    s = comparison.symbol.toList ++ rest := by
  unfold read? at h
  split at h <;> cases h <;> rfl

theorem isBlank_of_mem_symbol (comparison : Comparison) :
    ∀ c ∈ comparison.symbol.toList, isBlank c = false := by
  have none : comparison.symbol.toList.any isBlank = false := by cases comparison <;> rfl
  simpa using none

theorem isOperator_of_head?_symbol (comparison : Comparison) :
    ∀ c ∈ (comparison.symbol.toList ++ rest).head?, Predicate.isOperator c = true := by
  cases comparison <;> rintro c ⟨⟩ <;> rfl

end Comparison

namespace Aggregation

variable {s inner : List Char} {aggregation : Aggregation}

/-- How aggregations are written: by one of six words, or by a number text from zero to a hundred
between `p(` and `)`. -/
inductive Written : Aggregation → List Char → Prop
  | rate : Written .rate "rate".toList
  | count : Written .count "count".toList
  | avg : Written .avg "avg".toList
  | min : Written .min "min".toList
  | max : Written .max "max".toList
  | med : Written .med "med".toList
  | percentile {p inner} (number : Decimal.NumberText p inner) (inside : 0 ≤ p ∧ p ≤ 100) :
      Written (.percentile p) ('p' :: '(' :: (inner ++ [')']))

theorem percentileText?_eq_some_iff :
    percentileText? s = some inner ↔ s = 'p' :: '(' :: (inner ++ [')']) := by
  constructor
  · intro h
    unfold percentileText? at h
    split at h
    next rest =>
      split_ifs at h with closed
      cases h
      rw [List.dropLast_append_getLast? _ closed]
    next => cases h
  · rintro rfl
    simp [percentileText?]

/-- An aggregation is read from what it is written as, and from nothing else. -/
theorem ofChars_eq_ok_iff : ofChars s = .ok aggregation ↔ Written aggregation s := by
  constructor
  · intro h
    unfold ofChars at h
    split at h
    case h_7 =>
      split at h
      next => cases h
      next inner text =>
        split at h
        next => cases h
        next p read =>
          split_ifs at h with inside
          cases h
          rw [percentileText?_eq_some_iff.mp text]
          exact .percentile (Decimal.readChars?_eq_some_iff.mp read) inside
    all_goals
      next word =>
        cases h
        rw [← @String.toList_ofList s, word]
        constructor
  · rintro (_ | _ | _ | _ | _ | _ | ⟨number, inside⟩)
    case percentile p inner =>
      unfold ofChars
      -- A percentile is none of the six words.
      split
      case h_7 =>
        simp only [percentileText?_eq_some_iff.mpr rfl, Decimal.readChars?_eq_some_iff.mpr number]
        rw [if_pos inside]
      all_goals
        next word => simp [← String.toList_inj] at word
    all_goals rfl

theorem Written.readable (h : Written aggregation s) : aggregation.Readable := by
  rintro p rfl
  cases h with
  | percentile number inside => exact inside

/-- No blanks stand in a written aggregation, and no comparison begins in it. -/
theorem Written.clean (h : Written aggregation s) :
    ∀ c ∈ s, isBlank c = false ∧ Predicate.isOperator c = false := by
  cases h with
  | percentile number inside =>
    intro c member
    rcases member with _ | ⟨_, _ | ⟨_, member⟩⟩
    · decide
    · decide
    · rcases List.mem_append.mp member with member | member
      · exact clean_of_mem_numberText number member
      · rw [List.mem_singleton.mp member]
        decide
  | rate | count | avg | min | max | med =>
    exact List.forall_mem_iff_forall_getElem.mpr (by decide)

/-- The text of an aggregation that can be read is what it is written as. -/
theorem written_text (readable : aggregation.Readable) :
    Written aggregation aggregation.text.toList := by
  cases aggregation with
  | percentile p =>
    have inside := readable p rfl
    have finite : p.isFinite :=
      Nearest.isFinite_of_between (by decide) (by decide) inside.1 inside.2
    have text : (percentile p).text.toList = 'p' :: '(' :: ((Decimal.plain p).toList ++ [')']) := by
      simp [Aggregation.text]
    rw [text]
    exact .percentile (Decimal.numberText_plain finite) inside
  | rate | count | avg | min | max | med => constructor

end Aggregation

namespace Predicate

variable {predicate other : Predicate} {s left right left' right' : List Char}

/-- A text divided into the parts of a predicate: an aggregation, a comparison and the number text
of a finite bound. -/
structure Divided (predicate : Predicate) (left right s : List Char) : Prop where
  whole : s = left ++ (predicate.comparison.symbol.toList ++ right)
  aggregation : predicate.aggregation.Written left
  bound : Decimal.NumberText predicate.bound right
  finite : predicate.bound.isFinite = true

theorem readBound_eq_ok_iff {bound : Float} :
    readBound s = .ok bound ↔ Decimal.NumberText bound s ∧ bound.isFinite = true := by
  constructor
  · intro h
    unfold readBound at h
    split at h
    next => cases h
    next read =>
      split_ifs at h with finite
      cases h
      exact ⟨Decimal.readChars?_eq_some_iff.mp read, finite⟩
  · rintro ⟨number, finite⟩
    simp [readBound, Decimal.readChars?_eq_some_iff.mpr number, finite]

/-- The first character that can begin a comparison stands where the text is divided. -/
theorem Divided.span (h : Divided predicate left right s) :
    (s.span fun c => !isOperator c) = (left, predicate.comparison.symbol.toList ++ right) := by
  refine span_eq_iff.mpr ⟨h.whole, fun c member => ?_, fun c first => ?_⟩
  · simp [(h.aggregation.clean c member).2]
  · simp [predicate.comparison.isOperator_of_head?_symbol c first]

/-- What stands behind the symbol does not make it another one. -/
theorem Divided.comparison (h : Divided predicate left right s) :
    Comparison.read? (predicate.comparison.symbol.toList ++ right) =
      some (predicate.comparison, right) := by
  refine Comparison.read?_symbol _ fun first => ?_
  have := (clean_of_mem_numberText h.bound (List.mem_of_head? first)).2
  cases this

/-- A predicate is read from a text that can be divided into its parts, and from no other. -/
theorem ofCompact_eq_ok_iff :
    ofCompact s = .ok predicate ↔ ∃ left right, Divided predicate left right s := by
  constructor
  · intro h
    unfold ofCompact at h
    split at h
    next => cases h
    next left rest _ cut =>
      obtain ⟨rfl, -, -⟩ := span_eq_iff.mp cut
      split at h
      next => cases h
      next comparison right read =>
        obtain rfl := Comparison.symbol_of_read? read
        obtain ⟨bound, number, h⟩ := bind_eq_ok.mp h
        obtain ⟨aggregation, written, h⟩ := bind_eq_ok.mp h
        cases h
        obtain ⟨number, finite⟩ := readBound_eq_ok_iff.mp number
        exact ⟨left, right, rfl, Aggregation.ofChars_eq_ok_iff.mp written, number, finite⟩
  · rintro ⟨left, right, h⟩
    have bound := readBound_eq_ok_iff.mpr ⟨h.bound, h.finite⟩
    have aggregation := Aggregation.ofChars_eq_ok_iff.mpr h.aggregation
    unfold ofCompact
    rw [h.span]
    split
    next cut =>
      have some : predicate.comparison.symbol.toList ≠ [] := by
        cases predicate.comparison <;> decide
      simp [some] at cut
    next cut =>
      cases cut
      simp only [h.comparison, bound, aggregation]
      rfl

/-- A text can be divided in one way only. -/
theorem Divided.unique (h : Divided predicate left right s) (h' : Divided other left' right' s) :
    predicate = other ∧ left = left' ∧ right = right' := by
  have read := ofCompact_eq_ok_iff.mpr ⟨left, right, h⟩
  rw [ofCompact_eq_ok_iff.mpr ⟨left', right', h'⟩] at read
  cases read
  have cut := h.span
  rw [h'.span] at cut
  simpa [eq_comm] using cut

/-- No predicate that can be read is written with blanks. -/
theorem Divided.withoutBlanks_eq_self (h : Divided predicate left right s) :
    withoutBlanks s = s := by
  refine List.filter_eq_self.mpr fun c member => ?_
  rw [h.whole] at member
  rcases List.mem_append.mp member with member | member
  · simp [(h.aggregation.clean c member).1]
  rcases List.mem_append.mp member with member | member
  · simp [predicate.comparison.isBlank_of_mem_symbol c member]
  · simp [(clean_of_mem_numberText h.bound member).1]

/-- A predicate is read back if it can be read at all. -/
theorem parse_text (readable : predicate.Readable) : parse predicate.text = .ok predicate := by
  have divided : Divided predicate predicate.aggregation.text.toList
      (Decimal.plain predicate.bound).toList predicate.text.toList := by
    refine ⟨?_, Aggregation.written_text readable.aggregation,
      Decimal.numberText_plain readable.bound, readable.bound⟩
    simp [text]
  rw [parse, divided.withoutBlanks_eq_self]
  exact ofCompact_eq_ok_iff.mpr ⟨_, _, divided⟩

/-- Nothing but a readable predicate is read. -/
theorem readable_of_parse {s : String} (h : parse s = .ok predicate) : predicate.Readable := by
  obtain ⟨left, right, divided⟩ := ofCompact_eq_ok_iff.mp h
  exact ⟨divided.aggregation.readable, divided.finite⟩

/-- A text is read as a predicate exactly if it can be divided into the parts of the predicate when
its blanks are dropped; all other texts are refused. No text can be divided in two ways, so there is
nothing to choose: a longer comparison is not taken for a shorter one. -/
theorem read_iff_divided (s : String) :
    (∀ predicate, parse s = .ok predicate ↔
      ∃ left right, Divided predicate left right (withoutBlanks s.toList)) ∧
    ∀ predicate other left right left' right',
      Divided predicate left right (withoutBlanks s.toList) →
      Divided other left' right' (withoutBlanks s.toList) →
        predicate = other ∧ left = left' ∧ right = right' := by
  constructor
  · intro predicate
    exact ofCompact_eq_ok_iff
  · intro predicate other left right left' right' divided divided'
    exact divided.unique divided'

theorem read_iff_divided_percentile :
    parse "p(95) <= 5e2" = .ok ⟨.percentile 95, .le, 500⟩ ∧
    ∀ other left right, Divided other left right "p(95)<=5e2".toList →
      ⟨.percentile 95, .le, 500⟩ = other ∧ "p(95)".toList = left ∧ "5e2".toList = right := by
  have compact : withoutBlanks "p(95) <= 5e2".toList = "p(95)<=5e2".toList := by decide
  have percentile : Decimal.NumberText 95 "95".toList :=
    Decimal.readChars?_eq_some_iff.mp (by decide +kernel)
  have bound : Decimal.NumberText 500 "5e2".toList :=
    Decimal.readChars?_eq_some_iff.mp (by decide +kernel)
  have divided : Divided ⟨.percentile 95, .le, 500⟩ "p(95)".toList "5e2".toList
      (withoutBlanks "p(95) <= 5e2".toList) :=
    ⟨by decide, .percentile percentile (by decide +kernel), bound, by decide +kernel⟩
  obtain ⟨read, unique⟩ := read_iff_divided "p(95) <= 5e2"
  refine ⟨(read _).mpr ⟨_, _, divided⟩, fun other left right another => ?_⟩
  exact unique _ _ _ _ _ _ divided (compact ▸ another)

end Predicate

end Cadence
