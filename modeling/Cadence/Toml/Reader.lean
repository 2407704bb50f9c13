import Cadence.Toml
import Cadence.Toml.Number

/-!
# Reading TOML
-/

namespace Cadence.Toml

/-- A character of a key without quotes. -/
def isKeyChar (c : Char) : Bool := c.isAlphanum || c == '_' || c == '-'

/-- One name of a key. -/
def name? (s : List Char) : Option (String × List Char) :=
  match s with
  | '"' :: _ | '\'' :: _ => (lineString? s).map fun (cs, rest) => (String.ofList cs, rest)
  | s =>
    let (cs, rest) := s.span isKeyChar
    if cs.isEmpty then none else some (String.ofList cs, rest)

/-- A key: names with dots between them, at most so many. -/
def key? : Nat → List Char → Option (List String × List Char)
  | 0, _ => none
  | fuel + 1, s => do
    let (name, rest) ← name? (skipGaps s)
    match skipGaps rest with
    | '.' :: rest => (key? fuel rest).map fun (names, rest) => (name :: names, rest)
    | rest => some ([name], rest)

/-- The text behind a comment, up to the end of its line. -/
def comment? : List Char → Option (List Char)
  | [] => some []
  | '\n' :: rest => some ('\n' :: rest)
  | '\r' :: '\n' :: rest => some ('\n' :: rest)
  | c :: rest => if isForbidden c then none else comment? rest

/-- The end of a line: blanks, a comment, and a line break or the end of the text. -/
def lineEnd? (s : List Char) : Option (List Char) := do
  let s ← match skipGaps s with
    | '#' :: rest => comment? rest
    | s => some s
  match s with
  | [] => some []
  | '\n' :: rest | '\r' :: '\n' :: rest => some rest
  | _ => none

/-- What may stand between the items of an array: blanks, line breaks and comments. -/
def skipLines? : Nat → List Char → Option (List Char)
  | 0, _ => none
  | fuel + 1, s =>
    match skipGaps s with
    | '\n' :: rest | '\r' :: '\n' :: rest => skipLines? fuel rest
    | '#' :: rest => (comment? rest).bind (skipLines? fuel)
    | s => some s

mutual

/-- A value at the front. -/
def value? : Nat → List Char → Option (Json × List Char)
  | 0, _ => none
  | fuel + 1, s =>
    match s with
    | [] => none
    | '"' :: _ | '\'' :: _ => (string? s).map fun (cs, rest) => (.str (String.ofList cs), rest)
    | '[' :: rest => (items? fuel rest).map fun (items, rest) => (.arr items, rest)
    | '\x7b' :: rest =>
      match skipGaps rest with
      | '\x7d' :: rest => some (.obj [], rest)
      | rest => (fields? fuel [] rest).map fun (entries, rest) => (.obj (entriesJson entries), rest)
    | s =>
      let (word, rest) := bareText s
      (bareValue? word).map fun v => (v, rest)

/-- The items of an array up to its closing bracket; a comma may stand behind the last. -/
def items? : Nat → List Char → Option (List Json × List Char)
  | 0, _ => none
  | fuel + 1, s => do
    match ← skipLines? (s.length + 1) s with
    | ']' :: rest => some ([], rest)
    | s =>
      let (item, rest) ← value? fuel s
      match ← skipLines? (rest.length + 1) rest with
      | ']' :: rest => some ([item], rest)
      | ',' :: rest => (items? fuel rest).map fun (items, rest) => (item :: items, rest)
      | _ => none

/-- The fields of a table on one line up to its closing brace. -/
def fields? : Nat → Entries → List Char → Option (Entries × List Char)
  | 0, _, _ => none
  | fuel + 1, entries, s => do
    let (key, rest) ← key? (s.length + 1) s
    let rest ← expect? '=' rest
    let (v, rest) ← value? fuel (skipGaps rest)
    let entries ← entries.addDotted v key
    match skipGaps rest with
    | '\x7d' :: rest => some (entries, rest)
    | ',' :: rest => fields? fuel entries rest
    | _ => none

end

/-- One statement and the line end behind it. -/
def statement? (document : Document) (s : List Char) : Option (Document × List Char) := do
  let fuel := s.length + 1
  match s with
  | '[' :: '[' :: rest =>
    let (path, rest) ← key? fuel rest
    let rest ← expect? ']' (← expect? ']' rest)
    some (← document.arrayHeader path, ← lineEnd? rest)
  | '[' :: rest =>
    let (path, rest) ← key? fuel rest
    let rest ← expect? ']' rest
    some (← document.header path, ← lineEnd? rest)
  | s =>
    let (key, rest) ← key? fuel s
    let rest ← expect? '=' rest
    let (v, rest) ← value? fuel (skipGaps rest)
    some (← document.pair key v, ← lineEnd? rest)

/-- The statements of a document, one after another. -/
def statements? : Nat → Document → List Char → Option Document
  | 0, _, _ => none
  | fuel + 1, document, s => do
    match ← skipLines? (s.length + 1) s with
    | [] => some document
    | s =>
      let (document, rest) ← statement? document s
      statements? fuel document rest

/-- Reads a document; a byte order mark may stand in front. -/
def parse? (s : String) : Option Json :=
  let cs := match s.toList with
    | '\ufeff' :: rest => rest
    | cs => cs
  (statements? (cs.length + 1) .empty cs).map Document.toJson

end Cadence.Toml
