import Cadence.Yaml.Scalar

/-!
# Reading YAML

Collections on one line have brackets; blocks have their structure in the columns of their entries.
Every function takes fuel, since it may pass over any number of lines before it goes on.
-/

namespace Cadence.Yaml

/-- What stands in front of a value: a tag, and a name under which it can be used again. -/
structure Properties where
  tag : Option String
  anchor : Option String

/-- The characters up to the next blank or line break. -/
def word (s : List Char) : List Char × List Char := s.span fun c => !isGap c && c != '\n'

/-- The characters of a name that is used in a collection on one line as well. -/
def name (s : List Char) : List Char × List Char :=
  s.span fun c => !isGap c && c != '\n' && !isFlowMark c

/-- The properties at the front; behind a line break there are no more. -/
def properties? (indent : Int) : Nat → Properties → Cursor → Option (Properties × Cursor)
  | 0, _, _ => none
  | fuel + 1, found, cursor =>
    let go (found : Properties) (rest : List Char) : Option (Properties × Cursor) := do
      let next ← (cursor.advance rest).skip .tight indent
      if next.fresh then some (found, next) else properties? indent fuel found next
    match cursor.rest with
    | '&' :: rest =>
      let (cs, rest) := name rest
      if cs.isEmpty || found.anchor.isSome then none
      else go { found with anchor := some (String.ofList cs) } rest
    | '!' :: rest =>
      let (cs, rest) := name rest
      if found.tag.isSome then none else go { found with tag := some (String.ofList cs) } rest
    | _ => some (found, cursor)

/-- The value of a text without quotes that has a tag. -/
def tagged (tag : Option String) (s : String) : Yaml :=
  match tag with
  | none => ofPlain s
  | some "!bool" => if s = "true" then .bool true else if s = "false" then .bool false else .null
  | some "!int" => ((integer? 10 s.toList).map .int).getD .null
  | some "!float" => if looksReal s then .real s else .null
  | some "!null" => .null
  | some _ => .text s

/-- Remembers a value under its name. -/
def keep (properties : Properties) (read : Yaml × Cursor) : Yaml × Cursor :=
  match properties.anchor with
  | none => read
  | some anchor => (read.1, { read.2 with anchors := (anchor, read.1) :: read.2.anchors })

/-- The value that an alias stands for. -/
def alias? (cursor : Cursor) (rest : List Char) : Option (Yaml × Cursor) :=
  let (cs, rest) := name rest
  (cursor.anchors.lookup (String.ofList cs)).map fun value => (value, cursor.advance rest)

/-- Adds an entry whose key is new. -/
def addEntry? (entries : List (Yaml × Yaml)) (key value : Yaml) : Option (List (Yaml × Yaml)) :=
  if entries.any fun (other, _) => sameKey other key then none else some (entries ++ [(key, value)])

mutual

/-- A value inside a collection on one line. -/
def flowValue? : Nat → Cursor → Option (Yaml × Cursor)
  | 0, _ => none
  | fuel + 1, cursor => do
    let cursor ← cursor.skip .spaced (-1)
    let (properties, cursor) ← properties? (-1) fuel ⟨none, none⟩ cursor
    let read ← match cursor.rest with
      | [] => none
      | '[' :: rest => (flowItems? fuel [] (cursor.advance rest)).map fun (vs, c) => (.list vs, c)
      | '\x7b' :: rest =>
        (flowEntries? fuel [] (cursor.advance rest)).map fun (es, c) => (.table es, c)
      | '*' :: rest => alias? cursor rest
      | c :: rest =>
        if c = '"' ∨ c = '\'' then (quoted? (-1) cursor).map fun (s, c) => (.text s, c)
        else if startsPlain true (c :: rest) then
          let (s, cursor) := plain true (-1) cursor
          some (tagged properties.tag s, cursor)
        else if isFlowMark c ∨ c = ':' then some (tagged properties.tag "", cursor)
        else none
    some (keep properties read)

/-- The value behind the colon of a key on one line, if there is a colon. -/
def flowBehindKey? (adjacent : Bool) : Nat → Cursor → Option (Option Yaml × Cursor)
  | 0, _ => none
  | fuel + 1, cursor => do
    let next ← cursor.skip .tight (-1)
    match next.rest with
    | ':' :: rest =>
      if adjacent || endsKey true rest then
        let (value, cursor) ← flowValue? fuel (next.advance rest)
        some (some value, ← cursor.skip .tight (-1))
      else none
    | _ => some (none, next)

/-- The items of a list on one line up to its bracket. An item may be a single entry of a table. -/
def flowItems? : Nat → List Yaml → Cursor → Option (List Yaml × Cursor)
  | 0, _, _ => none
  | fuel + 1, items, cursor => do
    let cursor ← cursor.skip .spaced (-1)
    match cursor.rest with
    | ']' :: rest => some (items, cursor.advance rest)
    | ',' :: _ => none
    | start =>
      let adjacent := start.head?.any fun c => c == '"' || c == '\'' || c == '[' || c == '\x7b'
      let (value, cursor) ← flowValue? fuel cursor
      let (behind, cursor) ← flowBehindKey? adjacent fuel cursor
      let item := match behind with
        | none => value
        | some v => .table [(value, v)]
      match cursor.rest with
      | ',' :: rest => flowItems? fuel (items ++ [item]) (cursor.advance rest)
      | ']' :: rest => some (items ++ [item], cursor.advance rest)
      | _ => none

/-- The entries of a table on one line up to its brace. -/
def flowEntries? : Nat → List (Yaml × Yaml) → Cursor → Option (List (Yaml × Yaml) × Cursor)
  | 0, _, _ => none
  | fuel + 1, entries, cursor => do
    let cursor ← cursor.skip .spaced (-1)
    match cursor.rest with
    | '\x7d' :: rest => some (entries, cursor.advance rest)
    | ',' :: _ => none
    | start =>
      let adjacent := start.head?.any fun c => c == '"' || c == '\'' || c == '[' || c == '\x7b'
      let (key, cursor) ← flowValue? fuel cursor
      let (behind, cursor) ← flowBehindKey? adjacent fuel cursor
      let entries ← addEntry? entries key (behind.getD .null)
      match cursor.rest with
      | ',' :: rest => flowEntries? fuel entries (cursor.advance rest)
      | '\x7d' :: rest => some (entries, cursor.advance rest)
      | _ => none

end

/-- A mark of a block at the front: a dash, a question mark or a colon with a blank behind it. -/
def mark? (mark : Char) (s : List Char) : Option (List Char) :=
  match s with
  | c :: rest => if c = mark ∧ startsBlank rest then some rest else none
  | [] => none

/-- A value that may be a key: quoted, in brackets or the first line of a text without quotes. The
colon behind a key has to stand on the line on which the key begins. -/
def key? (fuel : Nat) (indent : Int) (cursor : Cursor) : Option (Yaml × Cursor) := do
  let before := cursor.rest
  let read ← match cursor.rest with
    | [] => none
    | '*' :: rest => alias? cursor rest
    | c :: _ =>
      if c = '"' ∨ c = '\'' then (quoted? indent cursor).map fun (s, c) => (.text s, c)
      else if c = '[' ∨ c = '\x7b' then flowValue? fuel cursor
      else if (mark? ':' before).isSome then some (.null, cursor)
      else if startsPlain false before then
        let (line, rest) := plainLine false false before
        some (ofPlain (String.ofList (trimEnd line)), cursor.advance rest)
      else none
  let used := before.take (before.length - read.2.rest.length)
  if used.contains '\n' then none
  else
    let rest ← mark? ':' (read.2.rest.dropWhile isGap)
    some (read.1, read.2.advance rest)

/-- Where a block may begin. -/
inductive Opening where
  /-- On a line of its own only. -/
  | ownLine
  /-- On a line of its own; a list may stand no deeper than the key in front of it. -/
  | behindKey
  /-- Also behind the mark on the same line. -/
  | compact
  deriving DecidableEq

mutual

/-- A value in a block that is indented by `indent`. Where nothing is indented any deeper, there is
no value. Properties on the line of a key belong to the key. -/
def blockValue? (opening : Opening) (indent : Int) : Nat → Cursor → Option (Yaml × Cursor)
  | 0, _ => none
  | fuel + 1, cursor => do
    let start ← cursor.skip .tight indent
    let (properties, next) ← properties? indent fuel ⟨none, none⟩ start
    let ownLine := start.fresh || next.fresh
    let dash := (mark? '-' next.rest).isSome
    let sameColumn := opening == .behindKey && (next.column : Int) == indent && dash
    if next.atEnd || (ownLine && (next.column : Int) ≤ indent && !sameColumn) then
      some (keep properties (tagged properties.tag "", next))
    else
      let mayOpen := ownLine || opening == .compact
      let isKey := (mark? '?' next.rest).isSome || (key? fuel indent next).isSome
      if isKey && !next.fresh then
        if mayOpen then
          (blockEntries? start.column fuel [] start).map fun (es, c) => (Yaml.table es, c)
        else none
      else
        let read ←
          if dash then
            if mayOpen then
              (blockItems? next.column fuel [] next).map fun (vs, c) => (Yaml.list vs, c)
            else none
          else if isKey then
            (blockEntries? next.column fuel [] next).map fun (es, c) => (Yaml.table es, c)
          else match next.rest with
            | [] => none
            | '|' :: rest =>
              (block? true indent (next.advance rest)).map fun (s, c) => (Yaml.text s, c)
            | '>' :: rest =>
              (block? false indent (next.advance rest)).map fun (s, c) => (Yaml.text s, c)
            | '*' :: rest => alias? next rest
            | c :: _ =>
              if c = '"' ∨ c = '\'' then (quoted? indent next).map fun (s, c) => (Yaml.text s, c)
              else if c = '[' ∨ c = '\x7b' then flowValue? fuel next
              else if startsPlain false next.rest then
                let (s, cursor) := plain false indent next
                some (tagged properties.tag s, cursor)
              else none
        some (keep properties read)

/-- The items of a list whose dashes stand in a column. -/
def blockItems? (column : Nat) : Nat → List Yaml → Cursor → Option (List Yaml × Cursor)
  | 0, _, _ => none
  | fuel + 1, items, cursor =>
    match mark? '-' cursor.rest with
    | none => some (items, cursor)
    | some rest => do
      let (item, cursor) ← blockValue? .compact column fuel (cursor.advance rest)
      let items := items ++ [item]
      let next ← cursor.skip .tight column
      if next.atEnd then some (items, next)
      else if !next.fresh then none
      else if next.column = column then blockItems? column fuel items next
      else if next.column < column then some (items, next)
      else none

/-- The entries of a table whose keys stand in a column. A key behind a question mark may have no
value. -/
def blockEntries? (column : Nat) :
    Nat → List (Yaml × Yaml) → Cursor → Option (List (Yaml × Yaml) × Cursor)
  | 0, _, _ => none
  | fuel + 1, entries, cursor => do
    let (entry, cursor) ← match mark? '?' cursor.rest with
      | some rest => do
        let (key, cursor) ← blockValue? .compact column fuel (cursor.advance rest)
        let next ← cursor.skip .tight column
        match if next.column = column then mark? ':' next.rest else none with
        | some rest => do
          let (value, cursor) ← blockValue? .compact column fuel (next.advance rest)
          some ((key, value), cursor)
        | none => some ((key, .null), next)
      | none => do
        let (properties, start) ← properties? column fuel ⟨none, none⟩ cursor
        let (key, cursor) := keep properties (← key? fuel column start)
        let (value, cursor) ← blockValue? .behindKey column fuel cursor
        some ((key, value), cursor)
    let entries ← addEntry? entries entry.1 entry.2
    let next ← cursor.skip .tight column
    if next.atEnd then some (entries, next)
    else if !next.fresh then none
    else if next.column = column then blockEntries? column fuel entries next
    else if next.column < column then some (entries, next)
    else none

end

/-- Every line break as a line feed. -/
def unifyBreaks : List Char → List Char
  | '\r' :: '\n' :: rest => '\n' :: unifyBreaks rest
  | '\r' :: rest => '\n' :: unifyBreaks rest
  | c :: rest => c :: unifyBreaks rest
  | [] => []

/-- The text behind the directives in front of a document, which have to be followed by its
marker. -/
def skipDirectives? : Nat → Bool → Cursor → Option (Cursor × Bool)
  | 0, _, _ => none
  | fuel + 1, directives, cursor => do
    let next ← cursor.skip .leading (-1)
    match next.rest with
    | '%' :: rest =>
      if next.column = 0 then
        skipDirectives? fuel true ⟨rest.dropWhile (· != '\n'), 0, true, next.anchors⟩
      else none
    | '-' :: '-' :: '-' :: rest =>
      if next.column = 0 ∧ startsBlank rest then some (next.advance rest, true)
      else if directives then none
      else some (next, false)
    | _ => if directives then none else some (next, false)

/-- Whether nothing stands behind a document. -/
def nothingFollows : Nat → Cursor → Bool
  | 0, _ => false
  | fuel + 1, cursor =>
    match cursor.skip .tight (-1) with
    | none => false
    | some next =>
      match next.rest with
      | [] => true
      | '.' :: '.' :: '.' :: rest =>
        next.column == 0 && startsBlank rest && nothingFollows fuel (next.advance rest)
      | _ => false

/-- Reads a text that holds one document. A text without any stands for an empty table. -/
def parse? (s : String) : Option Yaml := do
  let cs := unifyBreaks s.toList
  let fuel := 4 * cs.length + 16
  let (start, marked) ← skipDirectives? fuel false ⟨cs, 0, true, []⟩
  if start.rest.isEmpty ∧ !marked then some (.table [])
  else
    let (value, cursor) ← blockValue? .ownLine (-1) fuel start
    if nothingFollows fuel cursor then some value else none

end Cadence.Yaml
