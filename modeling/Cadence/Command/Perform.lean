import Cadence.Client
import Cadence.Command.Help
import Cadence.Config.Load
import Cadence.Course

/-!
# Carrying out commands

What the program does with a command line, for any way of reading files, making runs, printing and
writing files. The exit status is 0 if the run passed, 1 if it did not, and 2 if there is no verdict
or the report could not be written into its file. A program that cannot go on breaks off with an
exit status of its own: if a list of settings would be longer than any list can be, and if the
report cannot be printed.

Sections 10.2 and 10.8 of the specification.
-/

namespace Cadence

/-- A run that is over. -/
structure Ended where
  course : Course
  runId : RunId
  startedAt : Moment

/-- The report of a run that is over, by the thresholds of its configuration. -/
def Ended.report (ended : Ended) (config : RunConfig) : Except Fault Report :=
  ended.course.report config.thresholds ended.runId ended.startedAt

/-- Why the program breaks off. -/
inductive Panic where
  /-- A list of settings would be longer than any list can be. -/
  | capacity
  /-- The report cannot be printed. -/
  | output (reason : String)
  deriving Repr, DecidableEq

/-- What is said when the program breaks off. -/
def Panic.message : Panic → String
  | capacity => "capacity overflow"
  | output reason => "failed printing to stdout: " ++ reason

/-- How a command ends without an answer. -/
inductive Failure where
  | fault (fault : Fault)
  | panic (panic : Panic)

def Failure.message : Failure → String
  | .fault cause => cause.message
  | .panic cause => cause.message

/-- What a command may do to its surroundings. -/
structure Effects (m : Type → Type) where
  /-- The working directory. -/
  directory : String
  /-- How many items a list can have at most. -/
  capacity : Nat
  /-- The text of the file at a path. -/
  read : String → m (Option String)
  /-- Makes the run that a configuration asks for. -/
  run : Options → Client → RunConfig → m (Except Fault Ended)
  /-- Prints a text, or says why it cannot be printed. -/
  print : String → m (Except String Unit)
  /-- Writes a text into the file at a path. -/
  save : String → String → m (Except Fault Unit)
  complain : String → m Unit

namespace Effects

variable {m : Type → Type} [Monad m]

/-- Looks at those files that a path of settings may stand for. -/
def view (effects : Effects m) (path : Option String) : m FileView := do
  let texts ← (path.toList.flatMap SettingFile.places).filterMapM fun place => do
    return (← effects.read place).map (place, ·)
  return ⟨effects.directory, fun place => texts.lookup place⟩

/-- Breaks off if the names of settings lead into a list that is too long. -/
def makeRoom (effects : Effects m) (path : Option String) (environment : Environment)
    (view : FileView) : Except Failure Unit :=
  if Settings.reach path environment view ≤ effects.capacity then .ok ()
  else .error (.panic .capacity)

/-- Goes on with what comes of an action, unless that is a fault. -/
def attempt {α : Type} (action : m (Except Fault α)) : ExceptT Failure m α :=
  ExceptT.adapt .fault (ExceptT.mk action)

/-- Makes the run that is asked for and reports it. -/
def makeReport (effects : Effects m) (environment : Environment) (options : Options) :
    ExceptT Failure m Report := do
  let view ← effects.view (options.config <|> environment.lookup Settings.fileVariable)
  effects.makeRoom options.config environment view
  let config ← attempt (pure (RunConfig.load options.config environment view))
  let client ← attempt (pure (Client.ofConfig config))
  let ended ← attempt (effects.run options client config)
  attempt (pure (ended.report config))

/-- Saves a text where that is asked for. -/
def saveTo (effects : Effects m) (text : String) : Option String → ExceptT Failure m Unit
  | none => pure ()
  | some path => attempt (effects.save path text)

/-- Prints a report, and saves it where that is asked for (10.8). -/
def deliver (effects : Effects m) (options : Options) (report : Report) :
    ExceptT Failure m Unit := do
  let text := report.render options.format
  ExceptT.adapt (fun reason => .panic (.output reason)) (ExceptT.mk (effects.print (text ++ "\n")))
  effects.saveTo text options.out

/-- Makes the run that is asked for and delivers its report, and says whether it passed. -/
def conduct (effects : Effects m) (environment : Environment) (options : Options) :
    ExceptT Failure m Bool := do
  let report ← effects.makeReport environment options
  effects.deliver options report
  return report.passed

end Effects

namespace Command

variable {m : Type → Type} [Monad m]

/-- The exit status for what became of a run (10.2). -/
def exitStatus : Except Failure Bool → Nat
  | .ok true => 0
  | .ok false => 1
  | .error (.fault _) => 2
  | .error (.panic _) => 101

/-- Carries out a command, and gives the exit status. It does not matter whether the program can say
what it is. -/
def perform (effects : Effects m) (environment : Environment) : Command → m Nat
  | help => do
    let _ ← effects.print (helpText environment)
    return 0
  | version => do
    let _ ← effects.print versionText
    return 0
  | run options => do
    let ended ← (effects.conduct environment options).run
    match ended with
    | .error failure => effects.complain (failure.message ++ "\n")
    | .ok _ => pure ()
    return exitStatus ended

/-- Carries out a command line, and gives the exit status. -/
def performLine (effects : Effects m) (environment : Environment) (arguments : List String) :
    m Nat := do
  match parse environment arguments with
  | .ok command => command.perform effects environment
  | .error fault => do
    effects.complain (usageFaultText fault)
    return 2

end Command

end Cadence
