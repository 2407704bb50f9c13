import Cadence.Json

/-!
# TOML documents

A document is built statement by statement: key-value pairs and headers that open tables. Every
table remembers how it came about, since that decides who may add to it.
-/

namespace Cadence.Toml

/-- How a table came about. -/
inductive Standing where
  /-- On the way to a table below it; a header may still open it. -/
  | implied
  /-- By a header. -/
  | opened
  /-- By the dots in a key. -/
  | dotted
  deriving Repr, DecidableEq

/-- A part of a document. -/
inductive Node where
  | value (value : Json)
  | table (standing : Standing) (entries : List (String × Node))
  /-- An array of tables, the last one first. -/
  | tables (elements : List (List (String × Node)))
  deriving Inhabited

abbrev Entries : Type := List (String × Node)

namespace Entries

/-- The node of a name. -/
def node? (entries : Entries) (name : String) : Option Node := entries.lookup name

/-- Puts a node in the place of a name's node, or behind all. -/
def put (name : String) (node : Node) : Entries → Entries
  | [] => [(name, node)]
  | (other, old) :: rest =>
    if other = name then (name, node) :: rest else (other, old) :: put name node rest

/-- Changes the entries that a path of headers leads to. Tables on the way are implied; in an array
of tables the last one is entered. -/
def descend (change : Entries → Option Entries) : List String → Entries → Option Entries
  | [], entries => change entries
  | name :: path, entries =>
    match entries.node? name with
    | none => (descend change path []).map fun inner => entries.put name (.table .implied inner)
    | some (.table standing inner) =>
      (descend change path inner).map fun inner => entries.put name (.table standing inner)
    | some (.tables (last :: others)) =>
      (descend change path last).map fun last => entries.put name (.tables (last :: others))
    | some _ => none

/-- Opens a table under a name, unless it was opened before or came about by dots. -/
def openTable (name : String) (entries : Entries) : Option Entries :=
  match entries.node? name with
  | none => some (entries.put name (.table .opened []))
  | some (.table .implied inner) => some (entries.put name (.table .opened inner))
  | some _ => none

/-- Adds a table to the array of tables under a name. -/
def addTable (name : String) (entries : Entries) : Option Entries :=
  match entries.node? name with
  | none => some (entries.put name (.tables [[]]))
  | some (.tables elements) => some (entries.put name (.tables ([] :: elements)))
  | some _ => none

/-- Adds a value under a name that is not taken. -/
def addValue (name : String) (value : Json) (entries : Entries) : Option Entries :=
  match entries.node? name with
  | none => some (entries.put name (.value value))
  | some _ => none

/-- Adds a value under a key with dots. Tables that a header has opened are not entered, and the
value itself may only be added to a table that came about by dots. -/
def addDotted (value : Json) : List String → Entries → Option Entries
  | [], _ => none
  | [name], entries => entries.addValue name value
  | name :: path, entries =>
    match entries.node? name with
    | none => (addDotted value path []).map fun inner => entries.put name (.table .dotted inner)
    | some (.table standing inner) =>
      if standing = .opened ∨ (standing = .implied ∧ path.length = 1) then none
      else (addDotted value path inner).map fun inner => entries.put name (.table standing inner)
    | some _ => none

end Entries

mutual

/-- A node as a value. -/
def Node.toJson : Node → Json
  | .value value => value
  | .table _ entries => .obj (entriesJson entries)
  | .tables elements => .arr (tablesJson [] elements)

/-- The entries of a table as fields. -/
def entriesJson : List (String × Node) → List (String × Json)
  | [] => []
  | (name, node) :: rest => (name, node.toJson) :: entriesJson rest

/-- The tables of an array in front of others, the last one first. -/
def tablesJson (behind : List Json) : List (List (String × Node)) → List Json
  | [] => behind
  | last :: others => tablesJson (.obj (entriesJson last) :: behind) others

end

/-- A document under construction: its tables and the path of the one that is open. -/
structure Document where
  root : Entries
  current : List String

namespace Document

def empty : Document := ⟨[], []⟩

/-- A key-value pair. -/
def pair (document : Document) (key : List String) (value : Json) : Option Document :=
  (document.root.descend (Entries.addDotted value key) document.current).map fun root =>
    { document with root }

/-- A header that opens a table. -/
def header (document : Document) (path : List String) : Option Document := do
  let name ← path.getLast?
  let root ← document.root.descend (Entries.openTable name) path.dropLast
  some ⟨root, path⟩

/-- A header that adds a table to an array. -/
def arrayHeader (document : Document) (path : List String) : Option Document := do
  let name ← path.getLast?
  let root ← document.root.descend (Entries.addTable name) path.dropLast
  some ⟨root, path⟩

/-- The document as a value. -/
def toJson (document : Document) : Json := .obj (entriesJson document.root)

end Document

end Cadence.Toml
