/-!
# The stop cell

One cell holds the reason for which a run is to stop. Whoever changes it raises its version; whoever
watches it knows the last version seen, so that no change is lost.

Section 10.6 of the specification.
-/

namespace Cadence

structure StopCell where
  reason : Option String
  version : Nat
  /-- Nobody is left who could change the cell. -/
  closed : Bool
  deriving Repr, DecidableEq, Inhabited

namespace StopCell

/-- A cell that starts with a reason or with none. -/
def initial (reason : Option String) : StopCell := ⟨reason, 0, false⟩

def isStopped (cell : StopCell) : Bool := cell.reason.isSome

/-- Asks for a stop. The first reason wins. -/
def stop (cell : StopCell) (reason : String) : StopCell :=
  match cell.reason with
  | some _ => cell
  | none => { cell with reason := some reason, version := cell.version + 1 }

/-- Puts a value into the cell whatever it held. -/
def replace (cell : StopCell) (reason : Option String) : StopCell :=
  { cell with reason, version := cell.version + 1 }

def close (cell : StopCell) : StopCell := { cell with closed := true }

/-- A cell keeps the reason it has. -/
theorem stop_of_isStopped {cell : StopCell} (h : cell.isStopped = true) (reason : String) :
    cell.stop reason = cell := by
  unfold stop isStopped at *
  cases hr : cell.reason with
  | none => simp [hr] at h
  | some _ => rfl

/-- A cell takes a reason if it has none. -/
theorem reason_stop (cell : StopCell) (reason : String) :
    (cell.stop reason).reason = cell.reason.or (some reason) := by
  unfold stop
  cases held : cell.reason with
  | none => rfl
  | some first => simp [held]

@[simp] theorem isStopped_stop (cell : StopCell) (reason : String) :
    (cell.stop reason).isStopped = true := by
  unfold stop isStopped
  cases hr : cell.reason with
  | none => rfl
  | some _ => simp [hr]

end StopCell

end Cadence
