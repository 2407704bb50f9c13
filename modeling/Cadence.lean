import Cadence.Client
import Cadence.Client.Wire
import Cadence.Command
import Cadence.Command.Help
import Cadence.Command.Perform
import Cadence.Command.Trial
import Cadence.Config
import Cadence.Config.Load
import Cadence.Course
import Cadence.Course.Agenda
import Cadence.Course.Notice
import Cadence.Decimal.Layout
import Cadence.Decimal.Reader
import Cadence.Decimal.Shortest
import Cadence.Directory
import Cadence.Duration
import Cadence.Duration.Phrase
import Cadence.Executor
import Cadence.Fault
import Cadence.Iteration
import Cadence.Json
import Cadence.Json.Printer
import Cadence.Json.Reader
import Cadence.Key
import Cadence.Ledger
import Cadence.Live.Gateway
import Cadence.Live.Run
import Cadence.Main
import Cadence.Metric
import Cadence.Moment
import Cadence.Pace
import Cadence.Percentile
import Cadence.Predicate
import Cadence.Proofs.Ascending
import Cadence.Proofs.Command.ExitStatus
import Cadence.Proofs.Config
import Cadence.Proofs.Course.Begin
import Cadence.Proofs.Course.Clock
import Cadence.Proofs.Course.Move
import Cadence.Proofs.Course.Pacing
import Cadence.Proofs.Course.Rate
import Cadence.Proofs.Decimal.Grammar
import Cadence.Proofs.Decimal.Plain
import Cadence.Proofs.Decimal.Reader
import Cadence.Proofs.Decimal.Shortest
import Cadence.Proofs.Executor.Accounts
import Cadence.Proofs.Executor.Event
import Cadence.Proofs.Executor.Grace
import Cadence.Proofs.Executor.Grounds
import Cadence.Proofs.Executor.Heed
import Cadence.Proofs.Executor.Overload
import Cadence.Proofs.Executor.Pacing
import Cadence.Proofs.Executor.Replies
import Cadence.Proofs.Executor.Reserve
import Cadence.Proofs.Executor.Slots
import Cadence.Proofs.Executor.Stage
import Cadence.Proofs.Executor.Trail
import Cadence.Proofs.Executor.Turn
import Cadence.Proofs.Executor.Vigil
import Cadence.Proofs.Executor.Workers
import Cadence.Proofs.Key
import Cadence.Proofs.Ledger.Bound
import Cadence.Proofs.Ledger.Data
import Cadence.Proofs.Ledger.Figures
import Cadence.Proofs.Ledger.Item
import Cadence.Proofs.Ledger.Judge
import Cadence.Proofs.Ledger.Order
import Cadence.Proofs.Ledger.Outlier
import Cadence.Proofs.Ledger.Recount
import Cadence.Proofs.Ledger.Rows
import Cadence.Proofs.Ledger.Trend
import Cadence.Proofs.Pace
import Cadence.Proofs.Percentile
import Cadence.Proofs.Predicate
import Cadence.Proofs.Quantity.Between
import Cadence.Proofs.Quantity.Float
import Cadence.Proofs.Quantity.Nearest
import Cadence.Proofs.Quantity.Percentile
import Cadence.Proofs.Quantity.Rounding
import Cadence.Proofs.Quantity.Scientific
import Cadence.Proofs.Quantity.Share
import Cadence.Proofs.Quantity.Sum
import Cadence.Proofs.Quantity.Whole
import Cadence.Proofs.Reading
import Cadence.Proofs.Run.Abort
import Cadence.Proofs.Run.Books
import Cadence.Proofs.Run.Gateway
import Cadence.Proofs.Run.Keys
import Cadence.Proofs.Run.Lanes
import Cadence.Proofs.Run.Overload
import Cadence.Proofs.Run.Pairs
import Cadence.Proofs.Run.Plan
import Cadence.Proofs.Run.Stop
import Cadence.Proofs.Scenario
import Cadence.Proofs.Selector
import Cadence.Proofs.Text.Bytes
import Cadence.Proofs.Threshold
import Cadence.Proofs.Verdict
import Cadence.Quantity
import Cadence.Quantity.Exact
import Cadence.Rehearsal
import Cadence.Rehearsal.Script
import Cadence.Rehearsal.Stub
import Cadence.Report
import Cadence.Report.Document
import Cadence.Report.Format
import Cadence.Report.Markdown
import Cadence.Report.Save
import Cadence.Report.Text
import Cadence.Request
import Cadence.Run
import Cadence.Run.Plan
import Cadence.RunId
import Cadence.Sample
import Cadence.Scenario
import Cadence.Selector
import Cadence.Setting
import Cadence.Setting.Convert
import Cadence.Setting.Environment
import Cadence.Setting.File
import Cadence.Setting.Path
import Cadence.Settings
import Cadence.StopCell
import Cadence.Text.Base64
import Cadence.Text.Blank
import Cadence.Text.Hidden
import Cadence.Text.Quoted
import Cadence.Threshold
import Cadence.Toml
import Cadence.Toml.Number
import Cadence.Toml.Reader
import Cadence.Toml.Text
import Cadence.Url
import Cadence.Url.Host
import Cadence.Url.Percent
import Cadence.Url.Punycode
import Cadence.Url.Reader
import Cadence.Verdict
import Cadence.Yaml
import Cadence.Yaml.Cursor
import Cadence.Yaml.Reader
import Cadence.Yaml.Scalar
import Cadence.Proofs.Url.Path
import Cadence.Proofs.Client
import Cadence.Proofs.Config.Load
import Cadence.Proofs.Decimal.Layout
import Cadence.Proofs.Json.Document
import Cadence.Proofs.Report.Document
import Cadence.Proofs.Report.Readout
import Cadence.Proofs.Report.Text
import Cadence.Proofs.Report.Verdict
import Cadence.Proofs.Threshold.Refusal
import Cadence.Proofs.Executor.Rounds
