import Cadence.Yaml

/-!
# Cursors

A place in a YAML text. Columns matter, since the structure of a document lies in its indentation.
-/

namespace Cadence.Yaml

/-- What is left of a text, the column it begins at, whether nothing but blanks stands in front of
it on its line, and the anchors seen so far. -/
structure Cursor where
  rest : List Char
  column : Nat
  fresh : Bool
  anchors : List (String × Yaml)

def isGap (c : Char) : Bool := c == ' ' || c == '\t'

/-- Whether a text begins with a blank or a line break or has ended. -/
def startsBlank : List Char → Bool
  | [] => true
  | c :: _ => isGap c || c == '\n'

/-- The brackets and the comma of collections on one line. -/
def isFlowMark (c : Char) : Bool :=
  c == ',' || c == '[' || c == ']' || c == '\x7b' || c == '\x7d'

/-- Whether a line begins with a marker between documents. -/
def isMarkerLine : List Char → Bool
  | '-' :: '-' :: '-' :: rest => startsBlank rest
  | '.' :: '.' :: '.' :: rest => startsBlank rest
  | _ => false

/-- Whether the line has anything but blanks. -/
def lineHasContent (s : List Char) : Bool :=
  match s.dropWhile isGap with
  | [] => false
  | c :: _ => c != '\n'

/-- Which kind of characters are passed over. -/
inductive Skipping where
  /-- The blanks at the front of a line. -/
  | leading
  /-- Behind a blank, where a comment may begin. -/
  | spaced
  /-- Behind a token. -/
  | tight
  | comment
  deriving DecidableEq

namespace Cursor

/-- A place some characters further on the same line. -/
def advance (cursor : Cursor) (rest : List Char) : Cursor :=
  { cursor with
    rest := rest
    column := cursor.column + (cursor.rest.length - rest.length)
    fresh := false }

/-- Whether a document ends here. -/
def atEnd (cursor : Cursor) : Bool :=
  cursor.rest.isEmpty || (cursor.column == 0 && isMarkerLine cursor.rest)

/-- Passes over blanks, comments and line breaks. A tab may not stand in the indentation of a
block. -/
def skipFrom (indent : Int) (anchors : List (String × Yaml)) :
    Skipping → Bool → Nat → List Char → Option Cursor
  | _, fresh, column, [] => some ⟨[], column, fresh, anchors⟩
  | mode, fresh, column, c :: rest =>
    if c = '\n' then skipFrom indent anchors .leading true 0 rest
    else if mode = .comment then skipFrom indent anchors .comment fresh (column + 1) rest
    else if c = ' ' ∨ c = '\t' then
      if c = '\t' ∧ mode = .leading ∧ (column : Int) < indent ∧ lineHasContent rest then none
      else
        let mode := if mode = .leading then .leading else .spaced
        skipFrom indent anchors mode fresh (column + 1) rest
    else if c = '#' then
      if mode = .tight then none else skipFrom indent anchors .comment fresh (column + 1) rest
    else some ⟨c :: rest, column, fresh, anchors⟩

/-- Passes over what stands between tokens. -/
def skip (cursor : Cursor) (mode : Skipping) (indent : Int) : Option Cursor :=
  skipFrom indent cursor.anchors (if cursor.fresh then .leading else mode) cursor.fresh
    cursor.column cursor.rest

end Cursor

/-- The number of line breaks at the front with all blanks around them, the column behind them, and
what follows. -/
def lineBreaks (count column : Nat) : List Char → Nat × Nat × List Char
  | [] => (count, column, [])
  | c :: rest =>
    if c = '\n' then lineBreaks (count + 1) 0 rest
    else if isGap c then lineBreaks count (column + 1) rest
    else (count, column, c :: rest)

/-- What line breaks inside a text stand for: one is a blank, of more the first is dropped. -/
def folded (count : Nat) : List Char :=
  if count ≤ 1 then [' '] else List.replicate (count - 1) '\n'

end Cadence.Yaml
