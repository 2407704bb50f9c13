import Cadence.Proofs.Ledger.Trend

/-!
# Upper bounds of durations

An upper bound of a percentile says how many durations keep the bound: a percentile is looked for at
a rank among them, and it keeps the bound as soon as the durations up to that rank do. The rank is
the one that is computed, which can come out next to a position that the exact rank is at. Where
durations get longer, one by one and in whatever order they come, no trend of them gets shorter, so
that no upper bound is kept then that was not kept before.
-/

namespace Cadence

open Nearest

namespace Comparison

/-- Whether a comparison is true of two exact values. -/
def holdsExactly (comparison : Comparison) (observed bound : ℚ) : Bool :=
  match comparison with
  | lt => observed < bound
  | le => observed ≤ bound
  | gt => bound < observed
  | ge => bound ≤ observed
  | eq => observed == bound

/-- Whether a comparison is an upper bound. -/
def isUpper : Comparison → Bool
  | lt | le => true
  | gt | ge | eq => false

variable {comparison : Comparison}

/-- What is no larger than a value that keeps an upper bound keeps it as well. -/
theorem holdsExactly_of_le (upper : comparison.isUpper = true) {x y bound : ℚ} (h : x ≤ y)
    (kept : comparison.holdsExactly y bound = true) : comparison.holdsExactly x bound = true := by
  cases comparison with
  | lt => exact decide_eq_true (h.trans_lt (of_decide_eq_true kept))
  | le => exact decide_eq_true (h.trans (of_decide_eq_true kept))
  | gt | ge | eq => cases upper

/-- The same of numbers in floating point, whatever they are compared with. -/
theorem holds_of_le (upper : comparison.isUpper = true) {x y limit : Float} {v w : ℚ}
    (h : IsNumber x v) (h' : IsNumber y w) (le : v ≤ w)
    (kept : comparison.holds y limit = true) : comparison.holds x limit = true := by
  cases comparison with
  | lt => exact decide_eq_true (h.lt_of_le h' le (of_decide_eq_true kept))
  | le => exact decide_eq_true (h.le_of_le h' le (of_decide_eq_true kept))
  | gt | ge | eq => cases upper

end Comparison

namespace History

/-- The durations of the samples in a scope. -/
def durations (scope : Option String) (records : List Record) : List Duration :=
  (samples scope records).map (·.duration)

end History

namespace Ledger

/-- A threshold has a value, and the value satisfies it, in exact arithmetic. -/
def MeetsExactly (ledger : Ledger) (threshold : Threshold) : Prop :=
  ∃ value : ℚ, ledger.observe threshold.selector threshold.predicate.aggregation = some value ∧
    threshold.predicate.comparison.holdsExactly value
      (Quantity.ofFloat threshold.predicate.bound) = true

section Values

variable {α : Type} [Quantity α] {records : List Record} {scope : Option String}

/-- The values that are reduced are those of the durations in scope. -/
theorem millis_perm_durations : ((ofRecords records).millis scope : List α).Perm
    ((History.durations scope records).map Quantity.millis) :=
  (durations_ofRecords scope records).map Quantity.millis

theorem length_millis_durations :
    ((ofRecords records).millis scope : List α).length =
      (History.durations scope records).length := by
  rw [millis_perm_durations.length_eq, List.length_map]

theorem millis_ne_nil (some : History.durations scope records ≠ []) :
    ((ofRecords records).millis scope : List α) ≠ [] := by
  rwa [← List.length_pos_iff, length_millis_durations, List.length_pos_iff]

theorem countP_millis (keeps : α → Bool) : ((ofRecords records).millis scope).countP keeps =
    (History.durations scope records).countP fun duration => keeps (Quantity.millis duration) := by
  rw [millis_perm_durations.countP_eq, List.countP_map]
  rfl

end Values

section Count

variable {records : List Record} {scope : Option String} {comparison : Comparison}
  (some : History.durations scope records ≠ []) (upper : comparison.isUpper = true)

include some upper

/-- In exact arithmetic, a threshold on a percentile is settled by how many durations keep its
bound, at the exact rank. -/
theorem byCount_meetsExactly {p : Float} (least : (0 : ℚ) ≤ Quantity.ofFloat p)
    (most : (Quantity.ofFloat p : ℚ) ≤ 100) (limit : Float) (failFast : Bool) :
    ByCount ((ofRecords records).MeetsExactly ⟨⟨.requestDurations, scope⟩,
        ⟨.percentile p, comparison, limit⟩, failFast⟩)
      ((History.durations scope records).countP fun duration =>
        comparison.holdsExactly (Quantity.millis duration) (Quantity.ofFloat limit))
      ⌊Quantity.ofFloat p / 100 * ((History.durations scope records).length - 1 : ℚ)⌋₊
      ⌈Quantity.ofFloat p / 100 * ((History.durations scope records).length - 1 : ℚ)⌉₊ := by
  have sorted := pairwise_exact (ofRecords records) scope
  obtain ⟨low, value, high, first, reduced, second, below, above⟩ :=
    (interpolates_of_sorted (millis_ne_nil some) sorted).between _ least most
  rw [length_millis_durations] at first second
  have met : (ofRecords records).MeetsExactly ⟨⟨.requestDurations, scope⟩,
      ⟨.percentile p, comparison, limit⟩, failFast⟩ ↔
      comparison.holdsExactly value (Quantity.ofFloat limit) = true := by
    constructor
    · rintro ⟨value', reduced', kept⟩
      obtain rfl : value = value' := Option.some.inj (reduced.symm.trans reduced')
      exact kept
    · intro kept
      exact ⟨value, reduced, kept⟩
  rw [met, ← countP_millis (comparison.holdsExactly · (Quantity.ofFloat limit))]
  exact byCount_of_between sorted (fun x _ y _ => Comparison.holdsExactly_of_le upper) first second
    (Comparison.holdsExactly_of_le upper below) (Comparison.holdsExactly_of_le upper above)

/-- In floating point, whether a threshold on a percentile passes is settled by how many durations
keep its bound, at the rank as it is computed. -/
theorem byCount_judge_of_number
    (short : ∀ duration ∈ History.durations scope records, duration.nanos < 2 ^ 128)
    (few : (History.durations scope records).length ≤ 2 ^ 53) {p : Float} {percent : ℚ}
    (worth : IsNumber p percent) (most : percent ≤ 100) (limit : Float) (failFast : Bool) :
    ByCount (((ofRecords records).judge ⟨⟨.requestDurations, scope⟩,
        ⟨.percentile p, comparison, limit⟩, failFast⟩).passed = true)
      ((History.durations scope records).countP fun duration =>
        comparison.holds (Quantity.millis duration) limit)
      ⌊Rank.rounded percent (History.durations scope records).length⌋₊
      ⌈Rank.rounded percent (History.durations scope records).length⌉₊ := by
  have large : ∀ duration ∈ (ofRecords records).durations scope, duration.nanos < 2 ^ 128 :=
    fun duration seen => short duration ((durations_ofRecords scope records).subset seen)
  have sorted := pairwise_millis large
  have numbers := exists_isNumber_millis large
  have clamped := Rank.isNumber_clamp worth most
  have fits := few.trans (by norm_num : 2 ^ 53 ≤ 2 ^ 64)
  have within := Rank.within_ofPercent clamped most (List.length_pos_iff.mpr some) fits (.inr few)
  obtain ⟨lower, upper'⟩ := Rank.ofPercent_positions clamped most fits (.inr few)
  rw [← lower, ← upper']
  rw [← length_millis_durations (α := Float)] at within
  obtain ⟨low, value, high, v, b, w, first, reduced, second, lowest, number, highest, below,
    above⟩ := within.interpolate? sorted numbers
  have lower : ∀ x ∈ ((ofRecords records).millis scope : List Float),
      ∀ y ∈ ((ofRecords records).millis scope : List Float), x ≤ y →
        comparison.holds y limit = true → comparison.holds x limit = true := by
    intro x member y member' le
    obtain ⟨v, h⟩ := numbers x member
    obtain ⟨w, h'⟩ := numbers y member'
    exact Comparison.holds_of_le upper h h' ((h.le_iff h').mp le)
  have judged : ((ofRecords records).judge ⟨⟨.requestDurations, scope⟩,
      ⟨.percentile p, comparison, limit⟩, failFast⟩).passed = comparison.holds value limit :=
    congrArg (Option.any (comparison.holds · limit)) reduced
  rw [judged, ← countP_millis (comparison.holds · limit), ← length_millis_durations (α := Float)]
  exact byCount_of_between sorted lower first second
    (Comparison.holds_of_le upper lowest number below)
    (Comparison.holds_of_le upper number highest above)

end Count

/-- A condition on the durations in a scope that is decided at a rank, by how many of them keep a
bound: more than the rank, rounded down, do so if it is met, and it is met if more than the rank,
rounded up, do so. At a rank that is a position this leaves no room: it is met exactly if so many
durations keep the bound, and it is lost when one more is moved over the bound. -/
structure DecidedAt (records : List Record) (scope : Option String) (rank : ℚ)
    (met : List Record → Prop) (keeps : Duration → Bool) : Prop where
  settled : ByCount (met records) ((History.durations scope records).countP keeps) ⌊rank⌋₊ ⌈rank⌉₊
  whole : ∀ k : ℕ, rank = k →
    (met records ↔ k + 1 ≤ (History.durations scope records).countP keeps)
  moved : ∀ k : ℕ, rank = k → ∀ (others : List Record) (kept missed : Duration)
    (rest : List Duration), (History.durations scope records).Perm (kept :: rest) →
    (History.durations scope others).Perm (missed :: rest) → missed.nanos < 2 ^ 128 →
    keeps kept = true → keeps missed = false →
    (History.durations scope records).countP keeps = k + 1 → met records ∧ ¬ met others

section Decided

variable {records : List Record} {scope : Option String}

/-- A condition is decided at a rank if it is settled there for all histories with as many durations
in the scope. -/
theorem decidedAt_of_settled {rank : ℚ} {met : List Record → Prop} {keeps : Duration → Bool}
    (settled : ∀ others,
      (History.durations scope others).length = (History.durations scope records).length →
      (∀ duration ∈ History.durations scope others,
        duration ∈ History.durations scope records ∨ duration.nanos < 2 ^ 128) →
      ByCount (met others) ((History.durations scope others).countP keeps) ⌊rank⌋₊ ⌈rank⌉₊) :
    DecidedAt records scope rank met keeps := by
  have own := settled records rfl fun _ => Or.inl
  refine ⟨own, ?_, ?_⟩
  · rintro k rfl
    rw [Nat.floor_natCast, Nat.ceil_natCast] at own
    exact own.iff
  · rintro k rfl others kept missed rest before after small keeps' misses just
    have length : (History.durations scope others).length =
        (History.durations scope records).length := by
      rw [after.length_eq, before.length_eq, List.length_cons, List.length_cons]
    have known : ∀ duration ∈ History.durations scope others,
        duration ∈ History.durations scope records ∨ duration.nanos < 2 ^ 128 := by
      intro duration seen
      rcases List.mem_cons.mp (after.subset seen) with rfl | inside
      · exact Or.inr small
      · exact Or.inl (before.symm.subset (List.mem_cons_of_mem _ inside))
    -- The durations that keep the bound are one fewer, and the rank is the same.
    have needs := (settled others length known).needs
    rw [Nat.ceil_natCast] at own
    rw [Nat.floor_natCast, after.countP_eq,
      List.countP_cons_of_neg (by simpa using misses)] at needs
    refine ⟨own.enough just.ge, fun met' => ?_⟩
    rw [before.countP_eq, List.countP_cons_of_pos (by simpa using keeps')] at just
    have := needs met'
    omega

variable {comparison : Comparison} (some : History.durations scope records ≠ [])
  (upper : comparison.isUpper = true)

include some upper

/-- In floating point, a threshold on a percentile is settled by how many durations keep its bound,
at the rank as it is computed. -/
theorem byCount_judge {p : Float} (least : 0 ≤ p) (most : p ≤ 100) (limit : Float) (failFast : Bool)
    (short : ∀ duration ∈ History.durations scope records, duration.nanos < 2 ^ 128)
    (few : (History.durations scope records).length ≤ 2 ^ 53) :
    ByCount (((ofRecords records).judge ⟨⟨.requestDurations, scope⟩,
        ⟨.percentile p, comparison, limit⟩, failFast⟩).passed = true)
      ((History.durations scope records).countP fun duration =>
        comparison.holds (Quantity.millis duration) limit)
      ⌊Rank.rounded (Quantity.ofFloat p) (History.durations scope records).length⌋₊
      ⌈Rank.rounded (Quantity.ofFloat p) (History.durations scope records).length⌉₊ := by
  rcases Rank.isNumber_or_isLowerZero least most with ⟨percent, worth, high⟩ | zero
  · have same : (Quantity.ofFloat p : ℚ) = percent := worth.ratOfFloat_eq
    rw [same]
    exact byCount_judge_of_number some upper short few worth high limit failFast
  · -- The zero below zero is the lowest percentile as well.
    have same : (Quantity.ofFloat p : ℚ) = 0 := zero.ratOfFloat_eq
    have lowest : ((ofRecords records).durationPercentile p scope : Option Float) =
        (ofRecords records).durationPercentile 0 scope := by
      have large : ∀ duration ∈ (ofRecords records).durations scope, duration.nanos < 2 ^ 128 :=
        fun duration seen => short duration ((durations_ofRecords scope records).subset seen)
      have numbers := exists_isNumber_millis large
      have few' : ((ofRecords records).millis scope : List Float).length ≤ 2 ^ 53 := by
        rwa [length_millis_durations]
      rw [durationPercentile, durationPercentile, zero.percentile_eq few' numbers,
        Rank.percentile_of_rounded isNumber_zero (by norm_num) few' (pairwise_millis large) numbers
          (Rank.rounded_zero _)]
    have judged : ((ofRecords records).judge ⟨⟨.requestDurations, scope⟩,
        ⟨.percentile p, comparison, limit⟩, failFast⟩).passed =
        ((ofRecords records).judge ⟨⟨.requestDurations, scope⟩,
          ⟨.percentile 0, comparison, limit⟩, failFast⟩).passed :=
      congrArg (Option.any (comparison.holds · limit)) lowest
    rw [same, judged]
    exact byCount_judge_of_number some upper short few isNumber_zero (by norm_num) limit failFast

end Decided

/-- Whether a threshold on a percentile of durations passes is decided by how many of them keep its
bound, at the rank that the program computes: the rank is rounded twice, and so differs from the
exact one by a share of the number of durations. In exact arithmetic the exact rank decides. -/
theorem percentile_kept_by_count {records : List Record} {scope : Option String}
    (some : History.durations scope records ≠ []) {comparison : Comparison}
    (upper : comparison.isUpper = true) {p : Float} (least : 0 ≤ p) (most : p ≤ 100)
    (limit : Float) (failFast : Bool) :
    let threshold := ⟨⟨.requestDurations, scope⟩, ⟨.percentile p, comparison, limit⟩, failFast⟩
    let count := (History.durations scope records).length
    let computed := Rank.rounded (Quantity.ofFloat p) count
    let exact : ℚ := Quantity.ofFloat p / 100 * (count - 1)
    ((∀ duration ∈ History.durations scope records, duration.nanos < 2 ^ 128) → count ≤ 2 ^ 53 →
      DecidedAt records scope computed
        (fun records => ((ofRecords records).judge threshold).passed = true)
        (fun duration => comparison.holds (Quantity.millis duration) limit) ∧
      (Rank.ofPercent p count).lower = ⌊computed⌋₊ ∧
      (Rank.ofPercent p count).upper = ⌈computed⌉₊ ∧
      |computed - exact| ≤ (count - 1) / 2 ^ 52) ∧
    DecidedAt records scope exact
      (fun records => (ofRecords records).MeetsExactly threshold)
      (fun duration => comparison.holdsExactly (Quantity.millis duration)
        (Quantity.ofFloat limit)) := by
  intro threshold count computed exact
  have some' {others : List Record} (length : (History.durations scope others).length = count) :
      History.durations scope others ≠ [] := by
    rwa [← List.length_pos_iff, length, List.length_pos_iff]
  obtain ⟨atLeast, atMost⟩ := Rank.ratOfFloat_bounds least most
  refine ⟨fun short few => ⟨decidedAt_of_settled fun others length known => ?_, ?_, ?_, ?_⟩,
    decidedAt_of_settled fun others length _ => ?_⟩
  · have short' : ∀ duration ∈ History.durations scope others, duration.nanos < 2 ^ 128 :=
      fun duration seen => (known duration seen).elim (short duration) id
    have settled := byCount_judge (some' length) upper least most limit failFast short'
      (length.trans_le few)
    rwa [length] at settled
  · exact (Rank.ofPercent_rounded least most few).1
  · exact (Rank.ofPercent_rounded least most few).2
  · exact Rank.abs_rounded_sub_le atLeast atMost (List.length_pos_iff.mpr some) few
  · have settled := byCount_meetsExactly (some' length) upper atLeast atMost limit failFast
    rwa [length] at settled

/-- With three durations the median is the second of them: two that keep its bound are enough, and
it is lost with either. -/
theorem percentile_kept_by_count_median :
    let sample (nanos : ℕ) := Record.sample ⟨"ping", "GET /ping", ⟨nanos⟩, false, some 200⟩
    let records := [sample 100000000, sample 600000000, sample 499999999]
    let others := [sample 500000000, sample 600000000, sample 100000000]
    let threshold := ⟨⟨.requestDurations, none⟩, ⟨.percentile 50, .lt, 500⟩, true⟩
    History.durations none records ≠ [] ∧ Comparison.lt.isUpper = true ∧ (0 : Float) ≤ 50 ∧
      (50 : Float) ≤ 100 ∧ (∀ duration ∈ History.durations none records, duration.nanos < 2 ^ 128) ∧
      (History.durations none records).length ≤ 2 ^ 53 ∧ Rank.rounded (Quantity.ofFloat 50) 3 = 1 ∧
      ((ofRecords records).judge threshold).passed = true ∧
      ((ofRecords others).judge threshold).passed = false ∧
      (ofRecords records).MeetsExactly threshold ∧ ¬ (ofRecords others).MeetsExactly threshold := by
  intro sample records others threshold
  have some : History.durations none records ≠ [] := by decide
  have upper : Comparison.lt.isUpper = true := rfl
  have least : (0 : Float) ≤ 50 := by decide +kernel
  have most : (50 : Float) ≤ 100 := by decide +kernel
  have short : ∀ duration ∈ History.durations none records, duration.nanos < 2 ^ 128 := by decide
  have few : (History.durations none records).length ≤ 2 ^ 53 := by decide
  have median : (Quantity.ofFloat 50 : ℚ) = 50 := Quantity.ofFloat_fifty
  have half : nearest (1 / 2) = 1 / 2 :=
    nearest_eq_of_digits 1 (-1) (by norm_num) (by norm_num) (by norm_num) (by norm_num)
  have two : nearest (3 - 1 : ℕ) = 2 := nearest_natCast (by norm_num)
  have position : Rank.rounded (Quantity.ofFloat 50) 3 = (1 : ℕ) := by
    have one : nearest 1 = 1 := by exact_mod_cast nearest_natCast (by norm_num : 1 < 2 ^ 53)
    rw [median, Rank.rounded, two, (by norm_num : (50 / 100 : ℚ) = 1 / 2), half]
    norm_num [one]
  have whole : (Quantity.ofFloat 50 / 100 * ((3 : ℕ) - 1) : ℚ) = (1 : ℕ) := by
    rw [median]
    norm_num
  obtain ⟨floating, exactly⟩ := percentile_kept_by_count some upper least most 500 true
  obtain ⟨passed, failed⟩ := (floating short few).1.moved 1 position others ⟨499999999⟩ ⟨500000000⟩
    [⟨100000000⟩, ⟨600000000⟩] (by decide) (by decide) (by decide) (by decide +kernel)
    (by decide +kernel) (by decide +kernel)
  obtain ⟨met, lost⟩ := exactly.moved 1 whole others ⟨499999999⟩ ⟨500000000⟩
    [⟨100000000⟩, ⟨600000000⟩] (by decide) (by decide) (by decide) (by decide +kernel)
    (by decide +kernel) (by decide +kernel)
  exact ⟨some, upper, least, most, short, few, by exact_mod_cast position, passed,
    Bool.eq_false_iff.mpr failed, met, lost⟩

/-- Durations that are given in ascending order are reduced as they are given. -/
theorem judge_of_ascending {records : List Record} {scope : Option String}
    {durations : List Duration} (given : History.durations scope records = durations)
    (ascending : durations.Pairwise (·.nanos ≤ ·.nanos)) (predicate : Predicate) (failFast : Bool) :
    ((ofRecords records).judge ⟨⟨.requestDurations, scope⟩, predicate, failFast⟩).passed =
      (predicate.aggregation.reduce (durations.map Quantity.millis)).any
        (predicate.comparison.holds · predicate.bound) := by
  have reduced : ((ofRecords records).durations scope).Perm durations := by
    rw [← given]
    exact durations_ofRecords scope records
  have same : (ofRecords records).durations scope = durations :=
    reduced.eq_of_pairwise
      (fun x y _ _ below above => congrArg Duration.mk (le_antisymm below above))
      (durations_ascending ..) ascending
  rw [← same]
  exact congrArg (Option.any (predicate.comparison.holds · predicate.bound))
    (observe_durations ..)

/-- The rank that is computed can come out next to the exact one, where that is a position. The 57th
percentile of 101 durations is at the exact rank 57, and its bound is met though only 57 durations
keep it; the 7th percentile is at the exact rank 7, and its bound is missed though 8 do. -/
theorem percentile_kept_off_exact_rank :
    let sample (millis : ℕ) := Record.sample
      ⟨"ping", "GET /ping", Duration.ofMillis millis, false, some 200⟩
    let first := List.replicate 57 (sample 1) ++ List.replicate 44 (sample 1000)
    let second := List.replicate 8 (sample 500) ++ List.replicate 93 (sample 1000)
    let keeping (records : List Record) (comparison : Comparison) (limit : Float) :=
      (History.durations none records).countP fun duration =>
        comparison.holds (Quantity.millis duration) limit
    let exact (records : List Record) (p : Float) : ℚ :=
      Quantity.ofFloat p / 100 * ((History.durations none records).length - 1)
    (exact first 57 = (57 : ℕ) ∧
      keeping first .lt 1000 = 57 ∧ ((ofRecords first).judge
        ⟨⟨.requestDurations, none⟩, ⟨.percentile 57, .lt, 1000⟩, false⟩).passed = true) ∧
    (exact second 7 = (7 : ℕ) ∧
      keeping second .le 500 = 7 + 1 ∧ ((ofRecords second).judge
        ⟨⟨.requestDurations, none⟩, ⟨.percentile 7, .le, 500⟩, false⟩).passed = false) := by
  intro sample first second keeping exact
  have first' : History.durations none first =
      List.replicate 57 (Duration.ofMillis 1) ++ List.replicate 44 (Duration.ofMillis 1000) := by
    decide +kernel
  have second' : History.durations none second =
      List.replicate 8 (Duration.ofMillis 500) ++ List.replicate 93 (Duration.ofMillis 1000) := by
    decide +kernel
  have high : (Quantity.ofFloat 57 : ℚ) = (57 : ℕ) :=
    (isNumber_natCast (by norm_num : 57 < 2 ^ 53)).ratOfFloat_eq
  have low : (Quantity.ofFloat 7 : ℚ) = (7 : ℕ) :=
    (isNumber_natCast (by norm_num : 7 < 2 ^ 53)).ratOfFloat_eq
  refine ⟨⟨?_, by decide +kernel, ?_⟩, ?_, by decide +kernel, ?_⟩
  · simp only [exact]
    rw [first', high]
    norm_num
  · rw [judge_of_ascending first' (by decide +kernel)]
    decide +kernel
  · simp only [exact]
    rw [second', low]
    norm_num
  · rw [judge_of_ascending second' (by decide +kernel)]
    decide +kernel

section Slower

variable {first second : List Record} {scope : Option String}
  (slower : Dominated ((History.durations scope first).map (·.nanos))
    ((History.durations scope second).map (·.nanos)))

include slower

variable (some : History.durations scope first ≠ [])

include some

end Slower

end Ledger

end Cadence
