import Cadence.Command.Trial

/-!
# The exit status

A command that is to make a run comes to a verdict if its configuration loads, there is a client for
it, the run can be made and reported, and the report is printed, and saved where that is asked for.
Its exit status tells the outcomes apart: 0 for a run that nobody stopped and that meets all its
thresholds, 1 for any other verdict, 2 if there is none. The program breaks off with status 101
where the names of settings lead into a list that is too long, and where the report cannot be
printed; the report is not saved then.

The surroundings of a command are a state of any type, so that they may answer in any way.
-/

namespace Cadence

section Verdict

/-- A threshold has a value, and the value satisfies it. -/
def Ledger.Meets (ledger : Ledger) (threshold : Threshold) : Prop :=
  ∃ value, ledger.observe threshold.selector threshold.predicate.aggregation = some value ∧
    threshold.predicate.holds value = true

/-- A threshold passes if it is met, and not for want of data. -/
theorem Ledger.passed_judge (ledger : Ledger) (threshold : Threshold) :
    (ledger.judge threshold).passed = true ↔ ledger.Meets threshold :=
  Option.any_eq_true _ _

/-- A report passes if nothing stopped its run and all thresholds are met. -/
theorem Run.passed_report (run : Run) (thresholds : List Threshold) (runId : RunId)
    (startedAt : Moment) (elapsed : Duration) :
    (run.report thresholds runId startedAt elapsed).passed = true ↔
      run.stop.reason = none ∧ ∀ threshold ∈ thresholds, run.ledger.Meets threshold := by
  simp [report, Report.passed, verdict, Verdict.withAbort, Ledger.evaluate,
    Verdict.ofJudgements, Ledger.passed_judge, and_comm]

end Verdict

section Play

variable {World α β : Type}

/-- What comes of an action that may fail, in a state of the surroundings. -/
def play (action : ExceptT Failure (StateM World) α) (world : World) : Except Failure α × World :=
  action.run.run world

variable {action : ExceptT Failure (StateM World) α} {next : α → ExceptT Failure (StateM World) β}
  {world after : World}

section Reworded

variable {Cause : Type} {reword : Cause → Failure} {action : StateM World (Except Cause α)}

end Reworded

end Play

section Completion

variable {World : Type}

/-- How a command that is to make a run comes to a report. -/
structure Reported (effects : Effects (StateM World)) (environment : Environment)
    (options : Options) (world : World) where
  view : FileView
  before : World
  viewed : (effects.view (options.config <|> environment.lookup Settings.fileVariable)).run world =
    (view, before)
  roomy : Settings.reach options.config environment view ≤ effects.capacity
  config : RunConfig
  loaded : RunConfig.load options.config environment view = .ok config
  client : Client
  connected : Client.ofConfig config = .ok client
  ended : Ended
  after : World
  made : (effects.run options client config).run before = (.ok ended, after)
  report : Report
  reported : ended.report config = .ok report

variable {effects : Effects (StateM World)} {environment : Environment} {options : Options}
  {world after : World}

/-- The report of a run that could be reported is about that run. -/
theorem Reported.passed_iff (way : Reported effects environment options world) :
    way.report.passed = true ↔ way.ended.course.run.stop.reason = none ∧
      ∀ threshold ∈ way.config.thresholds, way.ended.course.run.ledger.Meets threshold := by
  have reported := way.reported
  unfold Ended.report Course.report at reported
  split at reported
  · cases reported
  · rw [← Except.ok.inj reported]
    exact Run.passed_report ..
  · rw [← Except.ok.inj reported]
    exact Run.passed_report ..

end Completion

section Trials

namespace Trial

/-- A trial before a command is carried out in it. -/
def fresh : Trial := ⟨.empty, "", ""⟩

/-- A command line that asks for a run by a file of settings, with its report saved. -/
def line : List String := ["-cc.json", "-or.txt"]

/-- Settings of a run of one iteration for each scenario. -/
def brief : Environment :=
  [("BASE_URL", "http://[::1]:3000"), ("DURATION", "1ms"), ("SETTLE_MS", "0")]

/-- The exit status of the command line in a trial. -/
def status (effects : Effects (StateM Trial)) : Nat :=
  ((Command.performLine effects brief line).run fresh).1

end Trial

open Trial

end Trials

end Cadence
