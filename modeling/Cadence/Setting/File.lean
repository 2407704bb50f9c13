import Cadence.Fault
import Cadence.Json.Reader
import Cadence.Setting
import Cadence.Toml.Reader
import Cadence.Yaml.Reader

/-!
# Settings from files

A file is found by its path as it is, and else by its path with one of the known extensions behind
it. The extension says which format it has.
-/

namespace Cadence

/-- The files that can be seen: the working directory, and the text of the file at a path. -/
structure FileView where
  directory : String
  read? : String → Option String

inductive SettingFormat where
  | json
  | yaml
  | toml
  deriving Repr, DecidableEq

namespace SettingFormat

/-- The known extensions, in the order in which they are tried. -/
def extensions : List (String × SettingFormat) :=
  [("json", json), ("yaml", yaml), ("yml", yaml), ("toml", toml)]

/-- Reads a document of a format. -/
def parse? (format : SettingFormat) (text : String) : Option Json :=
  match format with
  | json => Json.parse? Json.scaledNumber text
  | yaml => (Yaml.parse? text).bind Yaml.toJson?
  | toml => Toml.parse? text

end SettingFormat

namespace SettingFile

/-- The names in a path that lead somewhere. -/
def names (path : String) : List String :=
  ((path.toList.splitOn '/').map String.ofList).filter fun name => !(name.isEmpty || name == ".")

/-- The extension of a name: what follows its last point, unless that is its first character. -/
def extension (name : String) : String :=
  match name.toList.reverse.span (· != '.') with
  | (_, []) | (_, [_]) => ""
  | (ending, _) => String.ofList ending.reverse

/-- The path from the working directory on. -/
def absolute (view : FileView) (path : String) : String :=
  if path.startsWith "/" then path else view.directory ++ "/" ++ path

/-- The path with extensions behind it, each with its format. There are none if no name is left to
put them behind. -/
def candidates (path : String) : List (String × SettingFormat) :=
  let names := names path
  match names.getLast? with
  | none => []
  | some ".." => []
  | some _ =>
    let stem := (if path.startsWith "/" then "/" else "") ++ "/".intercalate names
    SettingFormat.extensions.map fun (extension, format) => (stem ++ "." ++ extension, format)

/-- The paths at which a file is looked for, in order. -/
def places (path : String) : List String := path :: (candidates path).map (·.1)

/-- A path as it is shown: relative to a directory. -/
def relative (directory path : String) : String :=
  let rec go : List String → List String → List String
    | a :: as, b :: bs => if a = b then go as bs else (b :: bs).map (fun _ => "..") ++ a :: as
    | as, bs => bs.map (fun _ => "..") ++ as
  if path.startsWith "/" then "/".intercalate (go (names path) (names directory))
  else "/".intercalate (names path)

/-- The file that a path stands for, with its format and its text. -/
def find (view : FileView) (path : String) :
    Except SettingsFault (String × SettingFormat × String) :=
  let missing (why : String) (path : String) : SettingsFault :=
    .file ("configuration file \"" ++ path ++ "\" " ++ why)
  match view.read? path with
  | some text =>
    let ending := extension ((names path).getLastD "")
    match SettingFormat.extensions.lookup ending with
    | some format => .ok (path, format, text)
    | none => .error (missing "is not of a registered file format" (absolute view path))
  | none =>
    match (candidates path).findSome? fun (path, format) =>
        (view.read? path).map fun text => (path, format, text) with
    | some found => .ok found
    | none => .error (missing "not found" path)

/-- The settings in the file that a path stands for. The names at the top are in lower case. -/
def load (view : FileView) (path : String) : Except SettingsFault (List (String × Setting)) := do
  let (path, format, text) ← find view path
  let origin := relative view.directory path
  match format.parse? text with
  | some (.obj fields) => .ok (Setting.ofFields (some origin) fields)
  | _ => .error .fileSyntax

end SettingFile

end Cadence
