import Cadence.Yaml.Cursor

/-!
# Scalars in YAML

Texts without quotes, texts between single or double quotes, and blocks of lines.
-/

namespace Cadence.Yaml

/-- Drops blanks at the end. -/
def trimEnd (s : List Char) : List Char := (s.reverse.dropWhile isGap).reverse

/-- Whether a text without quotes may begin here. -/
def startsPlain (flow : Bool) : List Char → Bool
  | [] => false
  | c :: rest =>
    if c == '-' || c == '?' || c == ':' then
      !startsBlank rest && !(flow && rest.head?.any isFlowMark)
    else !(isGap c || c == '\n' || isFlowMark c || "#&*!|>'\"%@`".contains c)

/-- Whether a colon followed by this ends a key. -/
def endsKey (flow : Bool) (rest : List Char) : Bool :=
  startsBlank rest || (flow && rest.head?.any isFlowMark)

/-- What belongs to a text without quotes on one line, and what follows it. -/
def plainLine (flow spaced : Bool) : List Char → List Char × List Char
  | [] => ([], [])
  | c :: rest =>
    if c = '\n' || (c == ':' && endsKey flow rest) || (c == '#' && spaced) ||
        (flow && isFlowMark c) then
      ([], c :: rest)
    else
      let (line, rest) := plainLine flow (isGap c) rest
      (c :: line, rest)

/-- The further lines of a text without quotes. In a block they have to be indented. -/
def plainMore (flow : Bool) (indent : Int) : Nat → Cursor → List Char × Cursor
  | 0, cursor => ([], cursor)
  | fuel + 1, cursor =>
    match cursor.rest with
    | '\n' :: _ =>
      let (count, column, rest) := lineBreaks 0 cursor.column cursor.rest
      let next : Cursor := { cursor with rest, column, fresh := true }
      if next.atEnd || (!flow && (column : Int) ≤ indent) || rest.head? == some '#' then
        ([], cursor)
      else
        let (line, _) := plainLine flow true rest
        if line.isEmpty then ([], cursor)
        else
          let line := trimEnd line
          let (more, cursor) := plainMore flow indent fuel (next.advance (rest.drop line.length))
          (folded count ++ line ++ more, cursor)
    | _ => ([], cursor)

/-- A text without quotes. -/
def plain (flow : Bool) (indent : Int) (cursor : Cursor) : String × Cursor :=
  let line := trimEnd (plainLine flow false cursor.rest).1
  let behind := cursor.advance (cursor.rest.drop line.length)
  let (more, cursor) := plainMore flow indent cursor.rest.length behind
  (String.ofList (line ++ more), cursor)

/-- The character of an escape with one letter. -/
def escape? (c : Char) : Option Char :=
  ([('0', '\x00'), ('a', '\x07'), ('b', '\x08'), ('t', '\t'), ('\t', '\t'), ('n', '\n'),
    ('v', '\x0b'), ('f', '\x0c'), ('r', '\r'), ('e', '\x1b'), (' ', ' '), ('"', '"'), ('/', '/'),
    ('\\', '\\'), ('N', '\u0085'), ('_', '\u00a0'), ('L', '\u2028'), ('P', '\u2029')] :
    List (Char × Char)).lookup c

/-- The number of hexadecimal digits behind the letter of an escape. -/
def escapeWidth? : Char → Option Nat
  | 'x' => some 2
  | 'u' => some 4
  | 'U' => some 8
  | _ => none

/-- The character with a code point. -/
def codePoint? (digits : List Char) (width : Nat) : Option Char := do
  let ds ← digits.mapM (digit? 16)
  let n := ds.foldl (fun n d => 16 * n + d) 0
  if ds.length = width ∧ (n < 0xd800 ∨ (0xe000 ≤ n ∧ n ≤ 0x10ffff)) then some (Char.ofNat n)
  else none

/-- Whether a text between quotes may go on at the front of a line. -/
def mayContinue (indent : Int) (column : Nat) (rest : List Char) : Bool :=
  indent ≤ column && !(column == 0 && isMarkerLine rest)

/-- The rest of a text between quotes, taking at most so many steps. What has been read is kept in
reverse, and blanks are kept apart until it is known that no line break follows. -/
def quotedBody (quote : Char) (indent : Int) :
    Nat → List Char → List Char → Cursor → Option (List Char × Cursor)
  | 0, _, _, _ => none
  | fuel + 1, read, gaps, cursor =>
    let further := quotedBody quote indent fuel
    let goTo (rest : List Char) : Cursor := cursor.advance rest
    match cursor.rest with
    | [] => none
    | c :: rest =>
      if c = quote then
        match rest with
        | '\'' :: rest =>
          if quote = '\'' then further ('\'' :: gaps ++ read) [] (goTo rest)
          else some ((gaps ++ read).reverse, goTo ('\'' :: rest))
        | rest => some ((gaps ++ read).reverse, goTo rest)
      else if c = '\n' then
        let (count, column, rest) := lineBreaks 0 cursor.column cursor.rest
        if mayContinue indent column rest then
          further ((folded count).reverse ++ read) [] { cursor with rest, column, fresh := true }
        else none
      else if c = '\\' ∧ quote = '"' then
        match rest with
        | [] => none
        | '\n' :: _ =>
          let (count, column, rest) := lineBreaks 0 cursor.column rest
          if mayContinue indent column rest then
            further (List.replicate (count - 1) '\n' ++ gaps ++ read) []
              { cursor with rest, column, fresh := true }
          else none
        | c :: rest =>
          match escape? c with
          | some c => further (c :: gaps ++ read) [] (goTo rest)
          | none =>
            match escapeWidth? c with
            | none => none
            | some width =>
              match codePoint? (rest.take width) width with
              | none => none
              | some c => further (c :: gaps ++ read) [] (goTo (rest.drop width))
      else if isGap c then further read (c :: gaps) (goTo rest)
      else further (c :: gaps ++ read) [] (goTo rest)

/-- A text between quotes. -/
def quoted? (indent : Int) (cursor : Cursor) : Option (String × Cursor) :=
  match cursor.rest with
  | c :: rest =>
    (quotedBody c indent cursor.rest.length [] [] (cursor.advance rest)).map fun (cs, cursor) =>
      (String.ofList cs, cursor)
  | [] => none

/-- What becomes of the line breaks at the end of a block. -/
inductive Chomp where
  | strip
  | clip
  | keep
  deriving DecidableEq

/-- The header of a block: how far it is indented, if that is said, and what becomes of its end. -/
def blockHeader? (s : List Char) : Option (Option Nat × Chomp × List Char) :=
  let chomp (s : List Char) : Chomp × List Char := match s with
    | '-' :: rest => (.strip, rest)
    | '+' :: rest => (.keep, rest)
    | s => (.clip, s)
  let level (s : List Char) : Option Nat × List Char := match s with
    | c :: rest => if '1' ≤ c ∧ c ≤ '9' then (some (c.toNat - '0'.toNat), rest) else (none, s)
    | [] => (none, [])
  let (first, s) := chomp s
  let (level, s) := level s
  let (second, s) := if first = .clip then chomp s else (first, s)
  let gaps := s.takeWhile isGap
  let s := s.dropWhile isGap
  let s := if s.head? = some '#' ∧ gaps ≠ [] then s.dropWhile (· != '\n') else s
  match s with
  | [] => some (level, second, [])
  | '\n' :: _ => some (level, second, s)
  | _ => none

/-- How far the first line with anything in it is indented. -/
def blockIndent (column : Nat) : List Char → Nat
  | [] => column
  | c :: rest =>
    if c = '\n' then blockIndent 0 rest
    else if c = ' ' then blockIndent (column + 1) rest
    else column

/-- The lines of a block, each behind its line break, and what follows them. A line belongs to it
if it is indented far enough or empty. -/
def blockLines (indent : Nat) : Nat → List Char → List (List Char) × List Char
  | 0, s => ([], s)
  | fuel + 1, '\n' :: rest =>
    let spaces := (rest.take indent).takeWhile (· == ' ')
    let behind := rest.drop spaces.length
    let line := behind.takeWhile (· != '\n')
    if (spaces.length < indent ∧ line ≠ []) ∨ (indent = 0 ∧ isMarkerLine rest) ∨ rest = [] then
      ([], '\n' :: rest)
    else
      let (lines, rest) := blockLines indent fuel (behind.drop line.length)
      (line :: lines, rest)
  | _, s => ([], s)

/-- Joins the lines of a folded block: a single line break between lines that are not indented any
further is a blank, and before empty lines it is dropped. -/
def joinFolded : List (List Char) → List Char
  | [] => []
  | [line] => line
  | line :: rest =>
    let isDeep (line : List Char) : Bool := line.head?.any isGap
    let empties := rest.takeWhile (·.isEmpty)
    match rest.drop empties.length with
    | [] => line ++ List.replicate rest.length '\n'
    | next :: _ =>
      let breaks := List.replicate empties.length '\n'
      let joint :=
        if line.isEmpty || isDeep line || isDeep next then '\n' :: breaks
        else if empties.isEmpty then [' '] else breaks
      line ++ joint ++ joinFolded (rest.drop empties.length)
termination_by lines => lines.length
decreasing_by simp only [List.length_cons, List.length_drop]; omega

/-- A block of lines behind its mark. -/
def block? (literal : Bool) (indent : Int) (cursor : Cursor) : Option (String × Cursor) := do
  let (level, chomp, rest) ← blockHeader? cursor.rest
  let base := (max indent 0).toNat
  let depth := match level with
    | some level => if indent < 0 then level else base + level
    | none => max (blockIndent 0 rest) (indent + 1).toNat
  let (lines, rest) := blockLines depth (rest.length + 1) rest
  let filled := (lines.reverse.dropWhile (·.isEmpty)).reverse
  let body := if literal then ['\n'].intercalate filled else joinFolded filled
  let ending := match chomp with
    | .strip => []
    | .clip => if filled.isEmpty then [] else ['\n']
    | .keep =>
      List.replicate (lines.length - filled.length + if filled.isEmpty then 0 else 1) '\n'
  some (String.ofList (body ++ ending), { cursor with rest, column := 0, fresh := false })

end Cadence.Yaml
