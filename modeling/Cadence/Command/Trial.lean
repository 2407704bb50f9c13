import Cadence.Command.Perform
import Cadence.Rehearsal
import Cadence.Report.Save

/-!
# Trials

A trial carries out a command without touching anything: files lie in a directory in memory, runs
are rehearsals, and what is printed is kept.
-/

namespace Cadence

structure Trial where
  directory : Directory
  /-- Everything printed so far. -/
  printed : String
  complaints : String
  deriving Inhabited

namespace Trial

/-- Where the directory of a trial seems to lie. -/
def place : String := "/trial"

/-- A rehearsal of the run that a configuration asks for. -/
def run (stub : Stub) (config : RunConfig) : Except Fault Ended := do
  let course ← Course.ofConfig config 0 0 (.initial none) []
  .ok ⟨course.rehearse stub, ⟨0⟩, ⟨0, 0⟩⟩

/-- The effects of a command in a trial with a stub gateway. -/
def effects (stub : Stub) : Effects (StateM Trial) where
  directory := place
  capacity := Setting.mostItems
  read path := do return (← get).directory.read? path
  run _ _ config := pure (run stub config)
  print text := do
    modify fun trial => { trial with printed := trial.printed ++ text }
    return .ok ()
  save path text := do
    match (← get).directory.save path text with
    | .ok directory =>
      modify fun trial => { trial with directory }
      return .ok ()
    | .error fault => return .error fault
  complain text := modify fun trial => { trial with complaints := trial.complaints ++ text }

/-- Carries out a command line in a directory: the exit status, and the trial when it is over. -/
def perform (stub : Stub) (environment : Environment) (files : Directory)
    (arguments : List String) : Nat × Trial :=
  (Command.performLine (effects stub) environment arguments).run ⟨files, "", ""⟩

end Trial

end Cadence
