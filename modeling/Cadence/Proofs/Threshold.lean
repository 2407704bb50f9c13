import Cadence.Proofs.Predicate
import Cadence.Proofs.Selector
import Cadence.Threshold

/-!
# Thresholds read back

A judgement and every report carry a threshold as two texts. From them the threshold can be read
again, whatever it was read from in the first place; of the thresholds put together from parts, this
holds of those that could have been read.
-/

namespace Cadence.Threshold

/-- The texts in which a threshold is judged are read as a threshold with the same selector and the
same predicate, and judged as such they are the same texts again. -/
def ReadsBack (threshold : Threshold) : Prop :=
  ∀ observed, ∃ again,
    parse (Judgement.ofObserved threshold observed).metric
      (Judgement.ofObserved threshold observed).predicate = .ok again ∧
    again.selector = threshold.selector ∧ again.predicate = threshold.predicate ∧
    Judgement.ofObserved again observed = Judgement.ofObserved threshold observed

section Read

variable {selector : Selector} {predicate : Predicate} {threshold : Threshold}

theorem ofParts_eq_ok : ofParts selector predicate = .ok threshold ↔
    selector.metric.supports predicate.aggregation = true ∧
      threshold = ⟨selector, predicate, false⟩ := by
  unfold ofParts
  split_ifs with supported
  · simp [supported, eq_comm]
  · simp [supported]

/-- A threshold is read from what its two texts are read as. -/
theorem parse_eq_ok {s t : String} : parse s t = .ok threshold ↔
    ∃ selector predicate, Selector.parse s = .ok selector ∧ Predicate.parse t = .ok predicate ∧
      ofParts selector predicate = .ok threshold := by
  unfold parse
  cases Selector.parse s with
  | error fault => simp
  | ok selector =>
    cases Predicate.parse t with
    | error fault => simp
    | ok predicate => simp

/-- What is read is supported, and its parts can be read. -/
theorem readable_of_parse {s t : String} (h : parse s t = .ok threshold) :
    threshold.supported = true ∧ threshold.selector.Kept ∧ threshold.predicate.Readable := by
  obtain ⟨selector, predicate, read, read', made⟩ := parse_eq_ok.mp h
  obtain ⟨supported, rfl⟩ := ofParts_eq_ok.mp made
  exact ⟨supported, Selector.kept_of_parse read, Predicate.readable_of_parse read'⟩

/-- A supported threshold is read back exactly if its parts can be read. -/
theorem readsBack_iff (supported : threshold.supported = true) :
    threshold.ReadsBack ↔ threshold.selector.Kept ∧ threshold.predicate.Readable := by
  constructor
  · intro h
    obtain ⟨again, read, selector, predicate, -⟩ := h none
    rw [← selector, ← predicate]
    exact (readable_of_parse read).2
  · rintro ⟨kept, readable⟩ observed
    refine ⟨⟨threshold.selector, threshold.predicate, false⟩, ?_, rfl, rfl, rfl⟩
    exact parse_eq_ok.mpr ⟨threshold.selector, threshold.predicate, Selector.parse_text kept,
      Predicate.parse_text readable, ofParts_eq_ok.mpr ⟨supported, rfl⟩⟩

end Read

/-- Every threshold that was read is read back from the texts in which it is judged. A threshold
that was put together from a selector and a predicate is read back exactly if its scenario, if there
is one, has a name that is not empty and has no blank at either end, its bound is finite, and a
percentile lies from zero to a hundred. -/
theorem texts_read_back :
    (∀ s t threshold, parse s t = .ok threshold → threshold.ReadsBack) ∧
      ∀ selector predicate threshold, ofParts selector predicate = .ok threshold →
        (threshold.ReadsBack ↔ selector.Kept ∧ predicate.Readable) := by
  constructor
  · intro s t threshold h
    obtain ⟨supported, readable⟩ := readable_of_parse h
    exact (readsBack_iff supported).mpr readable
  · intro selector predicate threshold h
    obtain ⟨supported, rfl⟩ := ofParts_eq_ok.mp h
    exact readsBack_iff supported

/-- A scenario may have braces, colons and blanks within its name. Blanks around it are dropped when
it is read; a name that was never read keeps them, and is not read back. -/
theorem texts_read_back_scenario :
    (∃ threshold,
      parse " checks \x7b scenario : a:\x7bb\x7d c \x7d " " rate >= 0.50 " = .ok threshold ∧
      threshold.text = "checks\x7bscenario:a:\x7bb\x7d c\x7d: rate>=0.5" ∧
      threshold.ReadsBack) ∧
    ∃ threshold, ofParts ⟨.checks, some "a "⟩ ⟨.rate, .ge, 0.5⟩ = .ok threshold ∧
      ¬threshold.ReadsBack := by
  constructor
  · have computed :
        (parse " checks \x7b scenario : a:\x7bb\x7d c \x7d " " rate >= 0.50 ").toOption.map text =
          some "checks\x7bscenario:a:\x7bb\x7d c\x7d: rate>=0.5" := by decide +kernel
    obtain ⟨threshold, read, written⟩ := Option.map_eq_some_iff.mp computed
    have read : parse " checks \x7b scenario : a:\x7bb\x7d c \x7d " " rate >= 0.50 " =
        .ok threshold := by
      revert read
      cases parse " checks \x7b scenario : a:\x7bb\x7d c \x7d " " rate >= 0.50 " <;>
        simp [Except.toOption]
    exact ⟨threshold, read, written, texts_read_back.1 _ _ _ read⟩
  · have made : ofParts ⟨.checks, some "a "⟩ ⟨.rate, .ge, 0.5⟩ =
        .ok ⟨⟨.checks, some "a "⟩, ⟨.rate, .ge, 0.5⟩, false⟩ := rfl
    refine ⟨_, made, fun h => ?_⟩
    obtain ⟨kept, -⟩ := (texts_read_back.2 _ _ _ made).mp h
    have blank := (kept "a " rfl).2.2 ' ' rfl
    exact absurd blank (by decide)

end Cadence.Threshold
