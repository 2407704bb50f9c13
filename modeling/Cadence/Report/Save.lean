import Cadence.Directory
import Cadence.Report.Format

/-!
# Saving reports

Section 10.8 of the specification.
-/

namespace Cadence

/-- Writes a text into a file. -/
def Directory.save (directory : Directory) (path text : String) : Except Fault Directory :=
  match directory.write path text with
  | .ok directory => .ok directory
  | .error fault => .error (.io fault.message)

/-- Writes a report into a file in a format. -/
def Report.save (report : Report) (directory : Directory) (path : String) (format : ReportFormat) :
    Except Fault Directory :=
  directory.save path (report.render format)

end Cadence
