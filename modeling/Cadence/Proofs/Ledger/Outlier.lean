import Cadence.Proofs.Ledger.Trend

/-!
# The slowest request and the fastest

A further request stretches every rank and moves the durations behind its own by one position. If it
is no faster than any that was seen before it, no percentile falls for all that, and if it is no
slower, none grows. Of a request between the others nothing of the kind can be said.
-/

namespace Cadence.Ledger

section Durations

variable {records : List Record} {scope : Option String} {record : Record} {added : Sample}
  (observed : record.samplesIn scope = [added])

include observed

/-- One more request is one more duration. -/
theorem durations_add_perm : (((ofRecords records).add record).durations scope).Perm
    (added.duration :: (ofRecords records).durations scope) := by
  have history : History.samples scope (records ++ [record]) =
      History.samples scope records ++ [added] := by
    simp [History.samples, observed]
  rw [← ofRecords_concat]
  refine (durations_ofRecords scope _).trans ?_
  rw [history, List.map_append, List.map_singleton]
  exact (List.perm_append_singleton ..).trans ((durations_ofRecords scope records).symm.cons _)

/-- The duration of a request that is no faster than the others is read behind theirs. -/
theorem durations_add_of_slowest
    (slowest : ∀ duration ∈ (ofRecords records).durations scope,
      duration.nanos ≤ added.duration.nanos) :
    ((ofRecords records).add record).durations scope =
      (ofRecords records).durations scope ++ [added.duration] := by
  refine (eq_durations_of_perm ?_ ?_).symm
  · refine List.pairwise_append.mpr ⟨durations_ascending .., List.pairwise_singleton .., ?_⟩
    intro duration seen last member
    rw [List.mem_singleton.mp member]
    exact slowest duration seen
  · exact (List.perm_append_singleton ..).trans (durations_add_perm observed).symm

/-- The duration of a request that is no slower than the others is read in front of theirs. -/
theorem durations_add_of_fastest
    (fastest : ∀ duration ∈ (ofRecords records).durations scope,
      added.duration.nanos ≤ duration.nanos) :
    ((ofRecords records).add record).durations scope =
      added.duration :: (ofRecords records).durations scope := by
  refine (eq_durations_of_perm ?_ (durations_add_perm observed).symm).symm
  exact List.pairwise_cons.mpr ⟨fastest, durations_ascending ..⟩

end Durations

/-- In a scope with a request, one more that is no faster than any before it lowers no percentile,
and one more that is no slower raises none, in exact arithmetic. It does not matter whether the
request is recorded by itself or with an iteration. -/
theorem percentile_follows_outlier {records : List Record} {scope : Option String}
    (some : (ofRecords records).requests scope ≠ 0) {record : Record} {added : Sample}
    (observed : record.samplesIn scope = [added]) (percent : ℚ) :
    let before := (ofRecords records).durationPercentile percent scope
    let after := ((ofRecords records).add record).durationPercentile percent scope
    ((∀ sample ∈ History.samples scope records,
        sample.duration.nanos ≤ added.duration.nanos) → Rises before after) ∧
      ((∀ sample ∈ History.samples scope records,
        added.duration.nanos ≤ sample.duration.nanos) → Rises after before) := by
  intro before after
  have some' : ((ofRecords records).millis scope : List ℚ) ≠ [] :=
    (millis_ne_nil_iff scope records).mpr some
  have ascending := pairwise_exact ((ofRecords records).add record) scope
  have seen {p : Duration → Prop}
      (all : ∀ sample ∈ History.samples scope records, p sample.duration) :
      ∀ duration ∈ (ofRecords records).durations scope, p duration := by
    intro duration member
    obtain ⟨sample, within, rfl⟩ :=
      List.mem_map.mp ((durations_ofRecords scope records).subset member)
    exact all sample within
  constructor
  · intro slowest
    have values : (((ofRecords records).add record).millis scope : List ℚ) =
        (ofRecords records).millis scope ++ [Quantity.millis added.duration] := by
      rw [millis, durations_add_of_slowest observed (seen slowest), List.map_append]
      rfl
    rw [values] at ascending
    show Rises before (percentile (((ofRecords records).add record).millis scope) percent)
    rw [values]
    exact rises_percentile_concat some' ascending percent
  · intro fastest
    have values : (((ofRecords records).add record).millis scope : List ℚ) =
        Quantity.millis added.duration :: (ofRecords records).millis scope := by
      rw [millis, durations_add_of_fastest observed (seen fastest)]
      rfl
    rw [values] at ascending
    show Rises (percentile (((ofRecords records).add record).millis scope) percent) before
    rw [values]
    exact rises_percentile_cons some' ascending percent

/-- After two requests, a slower one that an iteration reports lowers no percentile, and a faster
one raises none. -/
theorem percentile_follows_outlier_third :
    let request (nanos : ℕ) : Sample := ⟨"ping", "GET /ping", ⟨nanos⟩, false, some 200⟩
    let ledger := ofRecords [.sample (request 300000000), .sample (request 100000000)]
    let slow := Record.iteration "ping" ⟨[], [request 500000000]⟩
    let fast := Record.sample (request 20000000)
    ledger.requests none = 2 ∧
      (∀ percent : ℚ, Rises (ledger.durationPercentile percent none)
        ((ledger.add slow).durationPercentile percent none)) ∧
      ∀ percent : ℚ, Rises ((ledger.add fast).durationPercentile percent none)
        (ledger.durationPercentile percent none) := by
  intro request ledger slow fast
  have two : ledger.requests none = 2 := by decide
  have some : ledger.requests none ≠ 0 := by rw [two]; decide
  have observed : slow.samplesIn none = [request 500000000] := rfl
  have observed' : fast.samplesIn none = [request 20000000] := rfl
  refine ⟨two, fun percent => ?_, fun percent => ?_⟩
  · exact (percentile_follows_outlier some observed percent).1 (by decide)
  · exact (percentile_follows_outlier some observed' percent).2 (by decide)

end Cadence.Ledger
