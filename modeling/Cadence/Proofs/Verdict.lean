import Cadence.Run
import Mathlib.Data.List.Induction

/-!
# The cause of a verdict

A verdict begins with the judgements of the thresholds and may then be marked, any number of times,
with the reason of an early stop or with none. A mark with a reason keeps it from passing for good,
but the reason that it shows is that of the last mark. So a verdict that does not pass shows a
threshold that fails or a reason, unless a mark without a reason has taken the reason back.
-/

namespace Cadence

namespace Verdict

/-- A verdict that is marked time after time, each time with a reason or with none. -/
def markAll (verdict : Verdict) (reasons : List (Option String)) : Verdict :=
  reasons.foldl withAbort verdict

/-- A verdict passes just if its thresholds do and it shows no reason of a stop. -/
def Explained (verdict : Verdict) : Prop :=
  verdict.passed = true ↔
    (∀ judgement ∈ verdict.judgements, judgement.passed = true) ∧ verdict.aborted = none

/-- A reason has been given, and the last mark has none. -/
def Withdrawn (reasons : List (Option String)) : Prop :=
  reasons.getLast? = some none ∧ ∃ reason ∈ reasons, reason ≠ none

theorem markAll_concat (verdict : Verdict) (reasons : List (Option String))
    (reason : Option String) :
    verdict.markAll (reasons ++ [reason]) = (verdict.markAll reasons).withAbort reason :=
  List.foldl_append

theorem judgements_markAll (verdict : Verdict) (reasons : List (Option String)) :
    (verdict.markAll reasons).judgements = verdict.judgements := by
  induction reasons using List.reverseRecOn with
  | nil => rfl
  | append_singleton reasons reason ih => rw [markAll_concat, withAbort, ih]

/-- Every mark with a reason counts. -/
theorem passed_markAll (verdict : Verdict) (reasons : List (Option String)) :
    (verdict.markAll reasons).passed = true ↔
      verdict.passed = true ∧ ∀ reason ∈ reasons, reason = none := by
  induction reasons using List.reverseRecOn with
  | nil => simp [markAll]
  | append_singleton reasons reason ih =>
    rw [markAll_concat, withAbort, Bool.and_eq_true, ih, Option.isNone_iff_eq_none, and_assoc,
      List.forall_mem_append, List.forall_mem_singleton]

/-- Only the last mark is shown. -/
theorem aborted_markAll (verdict : Verdict) (reasons : List (Option String)) :
    (verdict.markAll reasons).aborted = reasons.getLast?.getD verdict.aborted := by
  induction reasons using List.reverseRecOn with
  | nil => rfl
  | append_singleton reasons reason ih =>
    rw [markAll_concat, withAbort, List.getLast?_concat, Option.getD_some]

theorem passed_ofJudgements (judgements : List Judgement) :
    (ofJudgements judgements).passed = true ↔
      ∀ judgement ∈ judgements, judgement.passed = true := by
  rw [ofJudgements, List.all_eq_true]

theorem failures_eq_nil_iff (verdict : Verdict) :
    verdict.failures = [] ↔ ∀ judgement ∈ verdict.judgements, judgement.passed = true := by
  simp [failures]

/-- No reason is shown just if none was given or it has been withdrawn. -/
theorem getLast?_getD_eq_none_iff (reasons : List (Option String)) :
    reasons.getLast?.getD none = none ↔
      (∀ reason ∈ reasons, reason = none) ∨ Withdrawn reasons := by
  rcases List.eq_nil_or_concat reasons with rfl | ⟨before, last, rfl⟩
  · simp
  · rw [List.concat_eq_append, Withdrawn, List.getLast?_concat, Option.getD_some]
    constructor
    · rintro rfl
      by_cases given : ∃ reason ∈ before ++ [none], reason ≠ none
      · exact Or.inr ⟨rfl, given⟩
      · push Not at given
        exact Or.inl given
    · rintro (none | ⟨withdrawn, -⟩)
      · exact none last (by simp)
      · exact Option.some.inj withdrawn

theorem not_withdrawn_of_none {reasons : List (Option String)}
    (none : ∀ reason ∈ reasons, reason = none) : ¬Withdrawn reasons := by
  rintro ⟨-, reason, member, given⟩
  exact given (none reason member)

/-- What is marked once is not withdrawn. -/
theorem not_withdrawn_singleton (reason : Option String) : ¬Withdrawn [reason] := by
  rintro ⟨last, given, member, some⟩
  rw [List.mem_singleton.mp member] at some
  exact some (Option.some.inj last)

section Marked

variable (judgements : List Judgement) (reasons : List (Option String))

theorem passed_marked_iff : ((ofJudgements judgements).markAll reasons).passed = true ↔
    (∀ judgement ∈ judgements, judgement.passed = true) ∧ ∀ reason ∈ reasons, reason = none := by
  rw [passed_markAll, passed_ofJudgements]

theorem aborted_marked_iff : ((ofJudgements judgements).markAll reasons).aborted = none ↔
    (∀ reason ∈ reasons, reason = none) ∨ Withdrawn reasons := by
  rw [aborted_markAll]
  exact getLast?_getD_eq_none_iff reasons

/-- A verdict fails without a cause that it shows just if its thresholds pass and its reason has
been withdrawn. -/
theorem causeless_iff : ((ofJudgements judgements).markAll reasons).passed = false ∧
      ((ofJudgements judgements).markAll reasons).failures = [] ∧
      ((ofJudgements judgements).markAll reasons).aborted = none ↔
    (∀ judgement ∈ judgements, judgement.passed = true) ∧ Withdrawn reasons := by
  rw [← Bool.not_eq_true, passed_marked_iff, failures_eq_nil_iff, judgements_markAll,
    aborted_marked_iff]
  constructor
  · rintro ⟨failed, all, none | withdrawn⟩
    · exact absurd ⟨all, none⟩ failed
    · exact ⟨all, withdrawn⟩
  · rintro ⟨all, withdrawn⟩
    exact ⟨fun passed => not_withdrawn_of_none passed.2 withdrawn, all, Or.inr withdrawn⟩

theorem explained_iff : ((ofJudgements judgements).markAll reasons).Explained ↔
    ¬((∀ judgement ∈ judgements, judgement.passed = true) ∧ Withdrawn reasons) := by
  rw [Explained, judgements_markAll, passed_marked_iff, aborted_marked_iff]
  constructor
  · rintro same ⟨all, withdrawn⟩
    exact not_withdrawn_of_none (same.mpr ⟨all, Or.inr withdrawn⟩).2 withdrawn
  · intro kept
    refine and_congr_right fun all => ⟨Or.inl, ?_⟩
    rintro (none | withdrawn)
    · exact none
    · exact absurd ⟨all, withdrawn⟩ kept

end Marked

/-- The verdict of a report is marked once, and shows its cause. -/
theorem explained_report (run : Run) (thresholds : List Threshold) (runId : RunId)
    (startedAt : Moment) (elapsed : Duration) :
    (run.report thresholds runId startedAt elapsed).verdict.Explained :=
  (explained_iff (thresholds.map run.ledger.judge) [run.stop.reason]).mpr fun withdrawn =>
    not_withdrawn_singleton _ withdrawn.2

/-- Whatever marks a verdict gets, its judgements stay. It passes just if all of them do and no mark
has a reason, and it shows the reason of the last mark. So it passes just if its thresholds do and
no reason is shown, or else fails for a threshold or for a reason that it shows, but for one case:
the thresholds pass and the reason has been withdrawn. Then it fails and shows no cause. -/
theorem cause_shown_unless_withdrawn (judgements : List Judgement)
    (reasons : List (Option String)) :
    let verdict := (ofJudgements judgements).markAll reasons
    verdict.judgements = judgements ∧
    (verdict.passed = true ↔ (∀ judgement ∈ judgements, judgement.passed = true) ∧
      ∀ reason ∈ reasons, reason = none) ∧
    verdict.aborted = reasons.getLast?.getD none ∧
    (verdict.Explained ↔
      ¬((∀ judgement ∈ judgements, judgement.passed = true) ∧ Withdrawn reasons)) ∧
    (verdict.passed = false ∧ verdict.failures = [] ∧ verdict.aborted = none ↔
      (∀ judgement ∈ judgements, judgement.passed = true) ∧ Withdrawn reasons) := by
  refine ⟨?_, ?_, ?_, ?_, ?_⟩
  · exact judgements_markAll _ reasons
  · exact passed_marked_iff judgements reasons
  · exact aborted_markAll _ reasons
  · exact explained_iff judgements reasons
  · exact causeless_iff judgements reasons

/-- A verdict whose only threshold passes is marked with a reason and then without one: it fails,
and no cause is shown. -/
theorem failed_without_cause :
    let verdict := (ofJudgements [⟨"http_reqs", "count==3", some 3, true⟩]).markAll
      [some "interrupted", none]
    (verdict.passed = false ∧ verdict.failures = [] ∧ verdict.aborted = none) ∧
    ¬∀ (judgements : List Judgement) (reasons : List (Option String)),
      ((ofJudgements judgements).markAll reasons).Explained := by
  refine ⟨⟨rfl, rfl, rfl⟩, fun always => ?_⟩
  have passed := (always [⟨"http_reqs", "count==3", some 3, true⟩] [some "interrupted", none]).mpr
    ⟨by simp [markAll, withAbort, ofJudgements], rfl⟩
  exact Bool.false_ne_true passed

end Verdict

end Cadence
