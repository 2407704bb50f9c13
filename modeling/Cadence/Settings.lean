import Cadence.Fault
import Cadence.Setting.Convert
import Cadence.Setting.Environment
import Cadence.Setting.File
import Cadence.Setting.Path

/-!
# The settings of a run

The settings that a run is configured with, brought together from built-in values, a file and the
environment, the later ones taking precedence, and given the kind that each of them needs.

Sections 6 and 10.4 of the specification.
-/

namespace Cadence

/-- A threshold as it is written. -/
structure ThresholdText where
  metric : String
  predicate : String
  abortOnFail : Bool
  deriving Repr, DecidableEq

structure Settings where
  baseUrl : String
  keyPrefix : String
  value : String
  ttlMillis : Nat
  ratePing : Float
  ratePutGet : Float
  duration : String
  gracePeriod : String
  settleMillis : Nat
  minWorkers : Nat
  requestTimeout : String
  progressInterval : String
  abortCheckInterval : String
  /-- Absent where no list is given. -/
  thresholds : Option (List ThresholdText)
  deriving Repr

namespace Settings

/-- The built-in values. -/
def builtIn : List (String × Scalar) :=
  [("base_url", .text "http://localhost:3000"), ("key_prefix", .text "testkey"),
    ("value", .text "hola"), ("ttl_ms", .int 100000), ("rate_ping", .float 50),
    ("rate_putget", .float 25), ("duration", .text "2m"), ("grace_period", .text "30s"),
    ("settle_ms", .int 100), ("min_workers", .int 10), ("request_timeout", .text "10s"),
    ("progress_interval", .text "10s"), ("abort_check_interval", .text "1s")]

/-- The settings that are taken from the environment as they are written; read as numbers, they
would lose the way they are written. -/
def literalNames : List String :=
  ["base_url", "key_prefix", "value", "duration", "grace_period", "request_timeout",
    "progress_interval", "abort_check_interval"]

/-- The built-in values as settings. -/
def builtInSettings : List (String × Setting) :=
  builtIn.map fun (name, value) => (name, .scalar value none)

/-- The settings of a file under their names in lower case. -/
def lowered (file : List (String × Setting)) : List (String × Setting) :=
  file.map fun (name, value) => (Environment.settingName name, value)

/-- The settings that are taken from the environment as they are written. -/
def literals (environment : Environment) : List (String × Setting) :=
  literalNames.filterMap fun name => (environment.literal? name).map fun value => (name, value)

/-- All sources in one tree. -/
def gather (file : List (String × Setting)) (environment : Environment) : Setting :=
  (((Setting.table [] none).putAll builtInSettings).putAll (lowered file)).putAll
    environment.settings |>.putAll (literals environment)

/-- A fault of a setting that is named by a key. -/
def mismatchFault (key : String) (setting : Setting) (mismatch : Mismatch) : SettingsFault :=
  .kind mismatch.found mismatch.expected (some key) setting.origin

/-- A setting converted. -/
def convert {α : Type} (read : Setting → Except Mismatch α) (key : String) (setting : Setting) :
    Except SettingsFault α :=
  match read setting with
  | .ok value => .ok value
  | .error mismatch => .error (mismatchFault key setting mismatch)

def missing {α : Type} (name : String) : Except SettingsFault α :=
  .error (.shape ("missing field `" ++ name ++ "`"))

/-- An entry of a table converted. -/
def entry {α : Type} (read : Setting → Except Mismatch α) (name : String)
    (entries : List (String × Setting)) : Except SettingsFault α :=
  match entries.lookup name with
  | some setting => convert read name setting
  | none => missing name

/-- The word for a setting in a place where it has the wrong form. -/
def formWord : Setting → String
  | .scalar (.int n) _ => "integer `" ++ toString n ++ "`"
  | .scalar (.float x) _ =>
    let text := Decimal.plain x
    "floating point `" ++ text ++ (if x.isFinite && !text.contains '.' then ".0" else "") ++ "`"
  | setting => setting.described

def wrongForm {α : Type} (setting : Setting) (expected : String) : Except SettingsFault α :=
  .error (.shape ("invalid type: " ++ formWord setting ++ ", expected " ++ expected))

/-- The threshold at a place of the list: a table with its entries, or a list of its parts in
order. -/
def threshold (index : Nat) (setting : Setting) : Except SettingsFault ThresholdText :=
  let place := "thresholds[" ++ Nat.repr index ++ "]"
  let form := "struct ThresholdSettings"
  match setting with
  | .table entries _ => do
    let part {α : Type} (read : Setting → Except Mismatch α) (name : String) :
        Except SettingsFault (Option α) :=
      match entries.lookup name with
      | some setting => (convert read (place ++ name) setting).map some
      | none => .ok none
    let metric ← part Setting.toText "metric"
    let predicate ← part Setting.toText "predicate"
    let abortOnFail ← part Setting.toSwitch "abort_on_fail"
    match metric, predicate with
    | none, _ => missing "metric"
    | _, none => missing "predicate"
    | some metric, some predicate => .ok ⟨metric, predicate, abortOnFail.getD false⟩
  | .list items _ => do
    let part {α : Type} (read : Setting → Except Mismatch α) (i : Nat) :
        Except SettingsFault (Option α) :=
      match items[i]? with
      | some setting => (convert read (place ++ "[" ++ Nat.repr i ++ "]") setting).map some
      | none => .ok none
    let short {α : Type} (length : Nat) : Except SettingsFault α :=
      .error (.shape ("invalid length " ++ Nat.repr length ++ ", expected " ++ form ++
        " with 3 elements"))
    match ← part Setting.toText 0 with
    | none => short 0
    | some metric =>
      match ← part Setting.toText 1 with
      | none => short 1
      | some predicate =>
        .ok ⟨metric, predicate, (← part Setting.toSwitch 2).getD false⟩
  | setting => wrongForm setting form

/-- The thresholds of a list, the first at a given place. -/
def thresholdList (index : Nat) : List Setting → Except SettingsFault (List ThresholdText)
  | [] => .ok []
  | setting :: rest => do
    let first ← threshold index setting
    let others ← thresholdList (index + 1) rest
    .ok (first :: others)

/-- The list of thresholds; nothing is no list. -/
def thresholdsOf : Option Setting → Except SettingsFault (Option (List ThresholdText))
  | none => .ok none
  | some (.scalar .null _) => .ok none
  | some (.list items _) => (thresholdList 0 items).map some
  | some setting => wrongForm setting "a sequence"

/-- Gives every setting in a tree its kind. -/
def ofTree (root : Setting) : Except SettingsFault Settings := do
  let entries := match root with
    | .table entries _ => entries
    | _ => []
  .ok
    { baseUrl := ← entry Setting.toText "base_url" entries
      keyPrefix := ← entry Setting.toText "key_prefix" entries
      value := ← entry Setting.toText "value" entries
      ttlMillis := ← entry Setting.toCount "ttl_ms" entries
      ratePing := ← entry Setting.toFloat "rate_ping" entries
      ratePutGet := ← entry Setting.toFloat "rate_putget" entries
      duration := ← entry Setting.toText "duration" entries
      gracePeriod := ← entry Setting.toText "grace_period" entries
      settleMillis := ← entry Setting.toCount "settle_ms" entries
      minWorkers := ← entry Setting.toCount "min_workers" entries
      requestTimeout := ← entry Setting.toText "request_timeout" entries
      progressInterval := ← entry Setting.toText "progress_interval" entries
      abortCheckInterval := ← entry Setting.toText "abort_check_interval" entries
      thresholds := ← thresholdsOf (entries.lookup "thresholds") }

/-- The variable that names a file of settings. -/
def fileVariable : String := "KVLOAD_CONFIG"

/-- The settings of the file, if there is one. A path that is given takes precedence over the one in
the environment. -/
def fileSettings (path : Option String) (environment : Environment) (view : FileView) :
    Except SettingsFault (List (String × Setting)) :=
  match path <|> environment.lookup fileVariable with
  | none => .ok []
  | some path => SettingFile.load view path

/-- How many items the longest list has to have that the names of settings lead into. A file that
cannot be read ends the loading before any list is made. -/
def reach (path : Option String) (environment : Environment) (view : FileView) : Nat :=
  match fileSettings path environment view with
  | .ok file => max (Setting.reach (lowered file)) (Setting.reach environment.settings)
  | .error _ => 0

/-- Loads the settings. -/
def load (path : Option String) (environment : Environment) (view : FileView) :
    Except SettingsFault Settings := do
  let file ← fileSettings path environment view
  ofTree (gather file environment)

end Settings

end Cadence
