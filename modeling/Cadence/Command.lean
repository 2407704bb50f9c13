import Cadence.Report.Format
import Cadence.Settings

/-!
# Command lines

Reads what the program is asked to do. Arguments are cut into tokens first; then the tokens count
from left to right: the first that asks for help or for the version, or is wrong, decides.
-/

namespace Cadence

/-- The options of the program. -/
inductive Flag where
  | config
  | format
  | out
  | verbose
  | help
  | version
  deriving Repr, DecidableEq

namespace Flag

/-- All options, in the order in which they are shown. -/
def all : List Flag := [config, format, out, verbose, help, version]

/-- The letter of an option. -/
def letter : Flag → Char
  | config => 'c'
  | format => 'f'
  | out => 'o'
  | verbose => 'v'
  | help => 'h'
  | version => 'V'

def word : Flag → String
  | config => "config"
  | format => "format"
  | out => "out"
  | verbose => "verbose"
  | help => "help"
  | version => "version"

/-- The name for the value of an option that takes one. -/
def valueName? : Flag → Option String
  | config => some "CONFIG"
  | format => some "FORMAT"
  | out => some "OUT"
  | verbose | help | version => none

def takesValue (flag : Flag) : Bool := flag.valueName?.isSome

/-- An option with the name of its value. -/
def usage (flag : Flag) : String :=
  "--" ++ flag.word ++ match flag.valueName? with
    | none => ""
    | some name => " <" ++ name ++ ">"

def ofLetter? (c : Char) : Option Flag := all.find? fun flag => flag.letter == c

def ofWord? (word : String) : Option Flag := all.find? fun flag => flag.word == word

@[simp] theorem ofLetter?_letter (flag : Flag) : ofLetter? flag.letter = some flag := by
  cases flag <;> rfl

@[simp] theorem ofWord?_word (flag : Flag) : ofWord? flag.word = some flag := by
  cases flag <;> rfl

end Flag

/-- What is wrong with a command line. -/
inductive UsageFault where
  | unexpected (argument : String)
  | repeated (flag : Flag)
  | missingValue (flag : Flag)
  | needlessValue (flag : Flag) (value : String)
  | format (value : String) (unknown : UnknownFormat)
  deriving Repr

def UsageFault.message : UsageFault → String
  | unexpected argument => "unexpected argument '" ++ argument ++ "' found"
  | repeated flag => "the argument '" ++ flag.usage ++ "' cannot be used multiple times"
  | missingValue flag => "a value is required for '" ++ flag.usage ++ "' but none was supplied"
  | needlessValue flag value =>
    "unexpected value '" ++ value ++ "' for '" ++ flag.usage ++ "' found; no more were expected"
  | format value unknown =>
    "invalid value '" ++ value ++ "' for '" ++ Flag.format.usage ++ "': " ++ unknown.message

/-- A piece of a command line. -/
inductive Token where
  /-- An option without a value. -/
  | bare (flag : Flag)
  | valued (flag : Flag) (text : String)
  | wrong (fault : UsageFault)
  deriving Repr

namespace Token

/-- The tokens of one argument, and the option whose value is to follow. -/
abbrev Cut : Type := List Token × Option Flag

/-- Cuts a group of letters. What follows the letter of an option that takes a value is its
value. -/
def cutLetters : List Char → Cut
  | [] => ([], none)
  | c :: rest =>
    match Flag.ofLetter? c with
    | none => ([.wrong (.unexpected (String.ofList ['-', c]))], none)
    | some flag =>
      if flag.takesValue then
        match rest with
        | [] => ([], some flag)
        | '=' :: text => ([.valued flag (String.ofList text)], none)
        | text => ([.valued flag (String.ofList text)], none)
      else
        let (tokens, wanting) := cutLetters rest
        (.bare flag :: tokens, wanting)

/-- Cuts an option that is written out. A value may follow an equals sign. -/
def cutWord (text : List Char) : Cut :=
  let (word, behind) := text.span (· != '=')
  match Flag.ofWord? (String.ofList word), behind with
  | none, _ => ([.wrong (.unexpected ("--" ++ String.ofList word))], none)
  | some flag, [] => if flag.takesValue then ([], some flag) else ([.bare flag], none)
  | some flag, _ :: value =>
    if flag.takesValue then ([.valued flag (String.ofList value)], none)
    else ([.wrong (.needlessValue flag (String.ofList value))], none)

/-- Whether an argument can be no value. A single hyphen can. -/
def looksLikeFlag (argument : String) : Bool := argument.startsWith "-" && argument != "-"

/-- Cuts arguments, the first of which may be the value of an option. Behind two hyphens there are
no options any more. -/
def cut : Option Flag → List String → List Token
  | none, [] => []
  | some flag, [] => [.wrong (.missingValue flag)]
  | some flag, argument :: rest =>
    if looksLikeFlag argument then [.wrong (.missingValue flag)]
    else .valued flag argument :: cut none rest
  | none, argument :: rest =>
    match argument.toList with
    | ['-', '-'] => rest.map fun argument => .wrong (.unexpected argument)
    | '-' :: '-' :: text =>
      let (tokens, wanting) := cutWord text
      tokens ++ cut wanting rest
    | '-' :: c :: letters =>
      let (tokens, wanting) := cutLetters (c :: letters)
      tokens ++ cut wanting rest
    | _ => .wrong (.unexpected argument) :: cut none rest

end Token

/-- How a run is asked for. -/
structure Options where
  config : Option String
  format : ReportFormat
  out : Option String
  verbose : Bool
  deriving Repr, DecidableEq

inductive Command where
  | help
  | version
  | run (options : Options)
  deriving Repr, DecidableEq

namespace Command

/-- The options that have been given so far. -/
structure Given where
  config : Option String := none
  format : Option ReportFormat := none
  out : Option String := none
  verbose : Bool := false
  deriving Repr

namespace Given

/-- Sets a value that has not been given before. -/
def once {α : Type} (flag : Flag) (old : Option α) (new : Except UsageFault α) :
    Except UsageFault (Option α) :=
  match old with
  | some _ => .error (.repeated flag)
  | none => new.map some

/-- A path is not empty. -/
def path (flag : Flag) (text : String) : Except UsageFault String :=
  if text.isEmpty then .error (.missingValue flag) else .ok text

def format? (text : String) : Except UsageFault ReportFormat :=
  match ReportFormat.parse text with
  | .ok format => .ok format
  | .error unknown => .error (.format text unknown)

/-- Takes the value of an option. -/
def setValue (given : Given) (flag : Flag) (text : String) : Except UsageFault Given := do
  match flag with
  | .config => .ok { given with config := ← once flag given.config (path flag text) }
  | .format => .ok { given with format := ← once flag given.format (format? text) }
  | .out => .ok { given with out := ← once flag given.out (path flag text) }
  | .verbose | .help | .version => .error (.needlessValue flag text)

/-- The options, each with its default if it is not given. The default for the file of settings is
the one that the environment names. -/
def options (given : Given) (environment : Environment) : Except UsageFault Options := do
  let config ← match given.config, environment.lookup Settings.fileVariable with
    | some path, _ => .ok (some path)
    | none, some text => (path .config text).map some
    | none, none => .ok none
  .ok ⟨config, given.format.getD .text, given.out, given.verbose⟩

end Given

/-- Takes tokens from left to right. -/
def ofTokens (environment : Environment) (given : Given) : List Token → Except UsageFault Command
  | [] => (given.options environment).map run
  | .wrong fault :: _ => .error fault
  | .bare .help :: _ => .ok help
  | .bare .version :: _ => .ok version
  | .bare .verbose :: rest =>
    if given.verbose then .error (.repeated .verbose)
    else ofTokens environment { given with verbose := true } rest
  | .bare flag :: _ => .error (.missingValue flag)
  | .valued flag text :: rest =>
    match given.setValue flag text with
    | .error fault => .error fault
    | .ok given => ofTokens environment given rest

/-- Reads a command line. -/
def parse (environment : Environment) (arguments : List String) : Except UsageFault Command :=
  ofTokens environment {} (Token.cut none arguments)

end Command

end Cadence
