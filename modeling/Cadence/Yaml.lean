import Cadence.Decimal.Reader
import Cadence.Json

/-!
# YAML documents

The values of a document. Keys may be of any kind; a value that is written without quotes is an
integer, a number, a switch or nothing where it looks like one.
-/

namespace Cadence

/-- A value of a document. A number that is no integer keeps its text. -/
inductive Yaml where
  | null
  | bool (b : Bool)
  | int (n : Int)
  | real (text : String)
  | text (s : String)
  | list (items : List Yaml)
  | table (entries : List (Yaml × Yaml))
  deriving Inhabited

namespace Yaml

/-- The value of a digit in bases up to sixteen. -/
def digit? (base : Nat) (c : Char) : Option Nat :=
  let n :=
    if c.isDigit then c.toNat - '0'.toNat
    else if 'a' ≤ c ∧ c ≤ 'f' then c.toNat - 'a'.toNat + 10
    else if 'A' ≤ c ∧ c ≤ 'F' then c.toNat - 'A'.toNat + 10
    else base
  if n < base then some n else none

/-- An integer of 64 bits in a base, with or without a sign. -/
def integer? (base : Nat) (s : List Char) : Option Int := do
  let (negative, ds) := Decimal.splitSign s
  let ds ← ds.mapM (digit? base)
  let n : Nat := ds.foldl (fun n d => base * n + d) 0
  let n : Int := if negative then -n else n
  if ds.isEmpty then none
  else if Int64.minValue.toInt ≤ n ∧ n ≤ Int64.maxValue.toInt then some n else none

/-- The integer that a text without quotes looks like. -/
def plainInteger? : List Char → Option Int
  | '0' :: 'x' :: rest => integer? 16 rest
  | '0' :: 'o' :: rest => integer? 8 rest
  | s => integer? 10 s

/-- The words for what no digits write. -/
def isRealWord (s : String) : Bool :=
  [".inf", ".Inf", ".INF", "+.inf", "+.Inf", "+.INF", "-.inf", "-.Inf", "-.INF",
    ".nan", ".NaN", ".NAN"].contains s

/-- A text that looks like a number. -/
def looksReal (s : String) : Bool :=
  isRealWord s || (s.any Char.isDigit && (Decimal.read? s).isSome)

/-- The value of a text without quotes. -/
def ofPlain (s : String) : Yaml :=
  match plainInteger? s.toList with
  | some n => .int n
  | none =>
    if s = "" ∨ s = "~" ∨ s = "null" then .null
    else if s = "true" then .bool true
    else if s = "false" then .bool false
    else if looksReal s then .real s
    else .text s

/-- Whether two keys are the same; keys with parts are told apart from all others. -/
def sameKey : Yaml → Yaml → Bool
  | null, null => true
  | bool a, bool b => a == b
  | int a, int b => a == b
  | real a, real b => a == b
  | text a, text b => a == b
  | _, _ => false

mutual

/-- A value as a JSON value, if all its numbers have digits. Entries count only where their key is a
text. -/
def toJson? : Yaml → Option Json
  | null => some .null
  | bool b => some (.bool b)
  | int n => some (.int n)
  | real s => (Decimal.read? s).map .float
  | text s => some (.str s)
  | list items => (toItems? items).map .arr
  | table entries => (toFields? entries).map .obj

/-- The items of a list as JSON values. -/
def toItems? : List Yaml → Option (List Json)
  | [] => some []
  | item :: rest => do
    let item ← toJson? item
    let rest ← toItems? rest
    some (item :: rest)

/-- The entries of a table as the fields of an object. -/
def toFields? : List (Yaml × Yaml) → Option (List (String × Json))
  | [] => some []
  | (text name, value) :: rest => do
    let value ← toJson? value
    let rest ← toFields? rest
    some ((name, value) :: rest)
  | _ :: rest => toFields? rest

end

end Yaml

end Cadence
