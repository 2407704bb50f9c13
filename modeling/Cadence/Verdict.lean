import Cadence.Threshold

/-!
# Verdicts

The verdict of a run: the judgements of its thresholds, why it was stopped early if it was, and
whether it passed as a whole.

Sections 3 and 10.6 of the specification.
-/

namespace Cadence

/-- What a run comes to. -/
structure Verdict where
  judgements : List Judgement
  passed : Bool
  /-- Why the run was stopped before its deadline, if it was. -/
  aborted : Option String
  deriving Repr

namespace Verdict

/-- A run passes if all its thresholds do (4.5). -/
def ofJudgements (judgements : List Judgement) : Verdict where
  judgements := judgements
  passed := judgements.all (·.passed)
  aborted := none

/-- The verdict with the reason of an early stop; with a reason, the run does not pass (10.6). -/
def withAbort (verdict : Verdict) (reason : Option String) : Verdict where
  judgements := verdict.judgements
  passed := verdict.passed && reason.isNone
  aborted := reason

/-- The judgements that did not pass. -/
def failures (verdict : Verdict) : List Judgement :=
  verdict.judgements.filter fun judgement => !judgement.passed

end Verdict

end Cadence
