import Cadence.Report.Document
import Cadence.Report.Markdown
import Cadence.Report.Text

/-!
# Report formats
-/

namespace Cadence

inductive ReportFormat where
  | text
  | markdown
  | json
  deriving Repr, DecidableEq, Inhabited

/-- A name that no format has. -/
structure UnknownFormat where
  name : String
  deriving Repr, DecidableEq

def UnknownFormat.message (unknown : UnknownFormat) : String :=
  "unknown report format `" ++ unknown.name ++ "` (expected text, markdown or json)"

/-- Reads the name of a format in any letter case. -/
def ReportFormat.parse (name : String) : Except UnknownFormat ReportFormat :=
  match name.map Char.toLower with
  | "text" => .ok text
  | "markdown" | "md" => .ok markdown
  | "json" => .ok json
  | other => .error ⟨other⟩

/-- Writes the report in a format. -/
def Report.render (report : Report) : ReportFormat → String
  | .text => report.text
  | .markdown => report.markdown
  | .json => report.json

end Cadence
