import Cadence.Ledger
import Cadence.Threshold

/-!
# Notices

What a run lets its operator know while it is going on.

Section 10.3 of the specification.
-/

namespace Cadence

/-- Something worth a line in the log. -/
inductive Notice where
  /-- The first arrival of a scenario that found no free worker. -/
  | overload (scenario : String) (workers : Nat)
  | brokenIteration (scenario : String)
  | graceOver (scenario : String) (abandoned : Nat)
  /-- A fail-fast threshold has failed. -/
  | crossed (threshold : String) (observed : Float)
  | progress (scenario : String) (dispatched completed dropped checksPassed checksTotal : Nat)
  deriving Repr

/-- The words of a notice; its figures are shown beside them. -/
def Notice.message : Notice → String
  | overload .. => "no free worker for scheduled arrival; target cannot keep up"
  | brokenIteration .. => "iteration task failed"
  | graceOver .. => "grace period elapsed; abandoning in-flight iterations"
  | crossed .. => "fail-fast threshold crossed; stopping run"
  | progress .. => "progress"

/-- The figures of a notice, each with its name. -/
def Notice.figures : Notice → List (String × String)
  | overload scenario workers => [("scenario", scenario), ("workers", Nat.repr workers)]
  | brokenIteration scenario => [("scenario", scenario)]
  | graceOver scenario abandoned => [("scenario", scenario), ("abandoned", Nat.repr abandoned)]
  | crossed threshold observed =>
    [("threshold", threshold), ("observed", Decimal.plain observed)]
  | progress scenario dispatched completed dropped checksPassed checksTotal =>
    [("scenario", scenario), ("dispatched", Nat.repr dispatched),
      ("completed", Nat.repr completed), ("dropped", Nat.repr dropped),
      ("checks", Nat.repr checksPassed ++ "/" ++ Nat.repr checksTotal)]

/-- The line that shows a notice. -/
def Notice.line (notice : Notice) : String :=
  " ".intercalate (notice.message :: notice.figures.map fun (name, value) => name ++ "=" ++ value)

end Cadence
