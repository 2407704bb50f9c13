import Cadence.Setting

/-!
# Settings from the environment

Every variable of the environment is a setting. Its text is read as a switch, an integer or a number
where it is one.

Section 10.4 of the specification.
-/

namespace Cadence

/-- The variables of a process and their texts. -/
abbrev Environment : Type := List (String × String)

namespace Environment

/-- The name of this source. -/
def origin : String := "the environment"

/-- The name of a setting in lower case. The names that are known are ASCII, so it is enough to take
the letters whose lower case is ASCII: those of ASCII and the sign for kelvin. -/
def settingName (name : String) : String :=
  name.map fun c => if c.toNat = 0x212a then 'k' else c.toLower

/-- What the text of a variable is worth. -/
def parse (text : String) : Scalar :=
  let word := text.map Char.toLower
  if word = "true" then .bool true
  else if word = "false" then .bool false
  else match Scalar.int? text with
    | some n => .int n
    | none =>
      match Decimal.read? text with
      | some x => .float x
      | none => .text text

/-- The variables as settings, their texts read. -/
def settings (environment : Environment) : List (String × Setting) :=
  environment.map fun (name, text) => (settingName name, .scalar (parse text) (some origin))

/-- The text of the variable that sets a setting, taken as it is. -/
def literal? (environment : Environment) (setting : String) : Option Setting :=
  (environment.reverse.find? fun (name, _) => settingName name = setting).map fun (_, text) =>
    .scalar (.text text) (some origin)

end Environment

end Cadence
