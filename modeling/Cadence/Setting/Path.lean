import Cadence.Setting

/-!
# Setting paths

The name of a setting may lead into tables and lists: `thresholds[0].metric`. A name that is no such
path is the name of a setting as a whole.
-/

namespace Cadence

/-- One step on the way to a setting. -/
inductive Step where
  | name (name : String)
  | item (index : Int)
  deriving Repr, DecidableEq

/-- How many items a list has to have for a step into it. -/
def Step.reach : Step → Nat
  | .name _ => 0
  | .item (.ofNat i) | .item (.negSucc i) => i + 1

/-- The steps to a setting, from the root. -/
abbrev Path : Type := List Step

namespace Path

/-- A character of a name in a path. -/
def isNameChar (c : Char) : Bool := c.isAlphanum || c == '_' || c == '-' || c == ' '

def isGap (c : Char) : Bool := c == ' ' || c == '\t'

/-- A subscript behind its opening bracket, and what follows it. -/
def subscript? (s : List Char) : Option (Int × List Char) :=
  let (negative, s) := match s.dropWhile isGap with
    | '-' :: rest => (true, rest)
    | s => (false, s)
  let (digits, rest) := s.span Char.isDigit
  let n := (Decimal.digitsValue 0 digits : Int)
  let n := if negative then -n else n
  if digits.isEmpty || !(Int64.minValue.toInt ≤ n && n ≤ Int64.maxValue.toInt) then none
  else match rest.dropWhile isGap with
    | ']' :: rest => some (n, rest)
    | _ => none

/-- The steps after the first, at most so many. -/
def steps? : Nat → List Char → Option Path
  | _, [] => some []
  | 0, _ => none
  | fuel + 1, '.' :: s =>
    let (name, rest) := s.span isNameChar
    if name.isEmpty then none else (steps? fuel rest).map (.name (String.ofList name) :: ·)
  | fuel + 1, '[' :: s => do
    let (index, rest) ← subscript? s
    (steps? fuel rest).map (.item index :: ·)
  | _, _ => none

/-- Reads a path. Every step takes a character. -/
def parse? (s : String) : Option Path :=
  let cs := s.toList
  let (name, rest) := cs.span isNameChar
  if name.isEmpty then none else (steps? cs.length rest).map (.name (String.ofList name) :: ·)

/-- The path that the name of a setting stands for. -/
def ofName (name : String) : Path := (parse? name).getD [.name name]

/-- How many items the longest list on a path has to have. -/
def reach (path : Path) : Nat := (path.map Step.reach).foldr max 0

end Path

namespace Setting

/-- Puts a value at the end of a path. -/
def put (value : Setting) : Path → Setting → Setting
  | [], _ => value
  | [.name name], target => assign name target value
  | .name name :: rest, target =>
    target.adjustName name fun entry => put value rest (entry.getD null)
  | .item index :: rest, target => target.adjustItem index (put value rest)

/-- Puts the settings of a source into a tree. -/
def putAll (root : Setting) (source : List (String × Setting)) : Setting :=
  source.foldl (fun root (name, value) => put value (Path.ofName name) root) root

/-- How many items the longest list has to have that the names of a source lead into. -/
def reach (source : List (String × Setting)) : Nat :=
  (source.map fun (name, _) => (Path.ofName name).reach).foldr max 0

end Setting

end Cadence
