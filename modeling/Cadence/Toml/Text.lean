import Cadence.Decimal.Reader

/-!
# Strings in TOML

Basic strings have escapes, literal strings have none; each kind may go over several lines between
three quotes.
-/

namespace Cadence.Toml

def isGap (c : Char) : Bool := c == ' ' || c == '\t'

def skipGaps (s : List Char) : List Char := s.dropWhile isGap

/-- A control character that may not stand in a document, line breaks apart. -/
def isForbidden (c : Char) : Bool := (c.toNat < 0x20 && c != '\t') || c.toNat == 0x7f

def push (c : Char) (read : Option (List Char × List Char)) : Option (List Char × List Char) :=
  read.map fun (cs, rest) => (c :: cs, rest)

/-- A line break at the front is dropped. -/
def dropBreak : List Char → List Char
  | '\n' :: rest => rest
  | '\r' :: '\n' :: rest => rest
  | s => s

/-- The value of a hexadecimal digit. -/
def hexDigit? (c : Char) : Option Nat :=
  if c.isDigit then some (c.toNat - '0'.toNat)
  else if 'a' ≤ c ∧ c ≤ 'f' then some (c.toNat - 'a'.toNat + 10)
  else if 'A' ≤ c ∧ c ≤ 'F' then some (c.toNat - 'A'.toNat + 10)
  else none

/-- The character of a code point, written with hexadecimal digits. -/
def codePoint? (digits : List Char) : Option Char := do
  let ds ← digits.mapM hexDigit?
  let n := ds.foldl (fun n d => 16 * n + d) 0
  if n < 0xd800 ∨ (0xe000 ≤ n ∧ n ≤ 0x10ffff) then some (Char.ofNat n) else none

/-- The character of an escape of one letter. -/
def escape? : Char → Option Char
  | 'b' => some '\x08'
  | 't' => some '\t'
  | 'n' => some '\n'
  | 'f' => some '\x0c'
  | 'r' => some '\r'
  | '"' => some '"'
  | '\\' => some '\\'
  | _ => none

/-- How far a string goes. -/
inductive Ending where
  /-- To a quote on the same line. -/
  | single
  /-- To three quotes. -/
  | triple
  deriving Repr, DecidableEq

/-- The blanks and line breaks behind a backslash at the end of a line; one line break at least. -/
def foldedLine? (s : List Char) : Option (List Char) :=
  match skipGaps s with
  | '\n' :: rest => some (rest.dropWhile fun c => isGap c || c == '\n' || c == '\r')
  | '\r' :: '\n' :: rest => some (rest.dropWhile fun c => isGap c || c == '\n' || c == '\r')
  | _ => none

/-- The rest of a string with given quotes, taking at most so many steps. Up to two quotes may
stand in front of the three that end it. -/
def stringBody (quote : Char) (ending : Ending) : Nat → List Char → Option (List Char × List Char)
  | 0, _ => none
  | _, [] => none
  | fuel + 1, c :: rest =>
    let further := stringBody quote ending fuel
    if c = quote then
      match ending with
      | .single => some ([], rest)
      | .triple =>
        let quotes := rest.takeWhile (· == quote)
        match quotes.length with
        | 0 | 1 => push quote (further rest)
        | 2 => some ([], rest.drop 2)
        | 3 => some ([quote], rest.drop 3)
        | 4 => some ([quote, quote], rest.drop 4)
        | _ => none
    else if c = '\\' ∧ quote = '"' then
      match rest with
      | 'u' :: a :: b :: c :: d :: rest =>
        (codePoint? [a, b, c, d]).bind fun c => push c (further rest)
      | 'U' :: a :: b :: c :: d :: e :: f :: g :: h :: rest =>
        (codePoint? [a, b, c, d, e, f, g, h]).bind fun c => push c (further rest)
      | [] => none
      | c :: after =>
        match escape? c with
        | some c => push c (further after)
        | none => if ending = .triple then (foldedLine? rest).bind further else none
    else if c = '\n' then if ending = .triple then push c (further rest) else none
    else if c = '\r' then
      match ending, rest with
      | .triple, '\n' :: rest => push '\n' (further rest)
      | _, _ => none
    else if isForbidden c then none
    else push c (further rest)

/-- A string on one line. -/
def lineString? : List Char → Option (List Char × List Char)
  | '"' :: rest => stringBody '"' .single (rest.length + 1) rest
  | '\'' :: rest => stringBody '\'' .single (rest.length + 1) rest
  | _ => none

/-- A string; a line break right behind three quotes does not belong to it. -/
def string? : List Char → Option (List Char × List Char)
  | '"' :: '"' :: '"' :: rest => stringBody '"' .triple (rest.length + 1) (dropBreak rest)
  | '\'' :: '\'' :: '\'' :: rest => stringBody '\'' .triple (rest.length + 1) (dropBreak rest)
  | s => lineString? s

end Cadence.Toml
