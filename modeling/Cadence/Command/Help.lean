import Cadence.Command

/-!
# Help texts

What the program says about itself. The options are shown one to a line, with their descriptions
below one another.
-/

namespace Cadence.Command

def programName : String := "kvload"

def versionText : String := programName ++ " 0.1.0\n"

/-- What an option is for. The one that can be set in the environment shows what is set there. -/
def description (environment : Environment) : Flag → String
  | .config =>
    let set := (environment.lookup Settings.fileVariable).getD ""
    "Config file (YAML, TOML or JSON); environment variables still override it " ++
      "[env: " ++ Settings.fileVariable ++ "=" ++ set ++ "]"
  | .format => "Report format: text, markdown or json [default: text]"
  | .out => "Also write the report to this file"
  | .verbose => "Debug logging (unless RUST_LOG is set)"
  | .help => "Print help"
  | .version => "Print version"

/-- An option in both its forms. -/
def optionForms (flag : Flag) : String :=
  String.ofList ['-', flag.letter] ++ ", " ++ flag.usage

/-- The column in which the descriptions begin. -/
def descriptionColumn : Nat :=
  (Flag.all.map fun flag => (optionForms flag).length).foldl max 0 + 4

def blanks (count : Nat) : String := String.ofList (List.replicate count ' ')

/-- An option with its description. Further lines of it begin below the first. -/
def optionLine (environment : Environment) (flag : Flag) : String :=
  let forms := "  " ++ optionForms flag
  forms ++ blanks (descriptionColumn - forms.length) ++
    (description environment flag).replace "\n" ("\n" ++ blanks descriptionColumn) ++ "\n"

def usageText : String := "Usage: " ++ programName ++ " [OPTIONS]\n"

def helpText (environment : Environment) : String :=
  "Rate-controlled load generator for the KV cache gateway\n\n" ++ usageText ++ "\nOptions:\n" ++
    String.join (Flag.all.map (optionLine environment))

/-- What is said when a command line is wrong. -/
def usageFaultText (fault : UsageFault) : String :=
  "error: " ++ fault.message ++ "\n\n" ++ usageText ++ "\nFor more information, try '--help'.\n"

end Cadence.Command
