import Cadence.Decimal.Reader
import Cadence.Json

/-!
# Reading JSON

Reads a JSON document strictly: no comments, no trailing commas, no raw control characters, whole
surrogate pairs only, and at most 127 arrays and objects inside one another. What a number text is
worth is a parameter of the reader: `exactNumber` takes the nearest double, `scaledNumber` keeps
the digits that fit 64 bits and scales them once.
-/

namespace Cadence.Json

/-- The parts of a number text. -/
structure NumberText where
  negative : Bool
  whole : List Char
  fraction : List Char
  exponent : Option Int
  deriving Repr

/-- What a number text is worth, if it can be represented. -/
abbrev NumberRule := NumberText → Option Json

namespace NumberText

/-- A text without point and exponent that lies in the range of 64-bit integers, signed or not.
Zero with a sign is no integer. -/
def integer? (t : NumberText) : Option Int :=
  let n := Decimal.digitsValue 0 t.whole
  if t.fraction ≠ [] ∨ t.exponent.isSome then none
  else if t.negative then if 0 < n ∧ Int64.minValue.toInt ≤ -n then some (-n) else none
  else if n < UInt64.size then some n else none

def signed (t : NumberText) (x : Float) : Option Json :=
  if x.isFinite then some (.float (if t.negative then -x else x)) else none

end NumberText

/-- Numbers with point or exponent, or out of the range of integers, are the nearest double. -/
def exactNumber : NumberRule := fun t =>
  match t.integer? with
  | some n => some (.int n)
  | none =>
    let n := Decimal.digitsValue (Decimal.digitsValue 0 t.whole) t.fraction
    t.signed (Decimal.toDouble n (t.exponent.getD 0 - t.fraction.length))

/-- Adds digits to a number as long as it stays below `2 ^ 64`; returns it with the number of
digits taken. -/
def takeDigits (n : Nat) : List Char → Nat × Nat
  | [] => (n, 0)
  | c :: rest =>
    let next := 10 * n + (c.toNat - '0'.toNat)
    if next < UInt64.size then
      let (n, count) := takeDigits next rest
      (n, count + 1)
    else (n, 0)

/-- Divides by powers of ten, at most 308 at a time; zero is left alone. -/
def shrink (x : Float) (exponent : Nat) : Float :=
  if x == 0 then x
  else if exponent ≤ 308 then x / Float.ofScientific 1 false exponent
  else shrink (x / Float.ofScientific 1 false 308) (exponent - 308)
termination_by exponent
decreasing_by omega

/-- A double scaled by one power of ten; nothing where the power is out of range. -/
def scale? (x : Float) (exponent : Int) : Option Float :=
  if exponent < 0 then some (shrink x exponent.natAbs)
  else if exponent ≤ 308 then some (x * Float.ofScientific 1 false exponent.natAbs)
  else if x == 0 then some x
  else none

/-- Numbers that are no integers keep the digits that fit 64 bits, as an integer; the rest only
move the point. -/
def scaledNumber : NumberRule := fun t =>
  match t.integer? with
  | some n => some (.int n)
  | none =>
    let (n, wholeTaken) := takeDigits 0 t.whole
    let wholeLeft := t.whole.length - wholeTaken
    let (n, fractionTaken) := takeDigits n t.fraction
    let exponent := t.exponent.getD 0 + wholeLeft - fractionTaken
    (scale? (Float.ofNat n) exponent).bind t.signed

/-- The characters that may stand between the parts of a document. -/
def isSpace (c : Char) : Bool := c == ' ' || c == '\n' || c == '\t' || c == '\r'

def skipSpace (s : List Char) : List Char := s.dropWhile isSpace

/-- The value of a hexadecimal digit. -/
def hexValue? (c : Char) : Option Nat :=
  if '0' ≤ c ∧ c ≤ '9' then some (c.toNat - '0'.toNat)
  else if 'a' ≤ c ∧ c ≤ 'f' then some (c.toNat - 'a'.toNat + 10)
  else if 'A' ≤ c ∧ c ≤ 'F' then some (c.toNat - 'A'.toNat + 10)
  else none

/-- The number that four hexadecimal digits write. -/
def hexUnit? (a b c d : Char) : Option Nat := do
  let a ← hexValue? a
  let b ← hexValue? b
  let c ← hexValue? c
  let d ← hexValue? d
  some (((a * 16 + b) * 16 + c) * 16 + d)

/-- The character of an escape sequence of one letter. -/
def simpleEscape? : Char → Option Char
  | '"' => some '"'
  | '\\' => some '\\'
  | '/' => some '/'
  | 'b' => some '\x08'
  | 'f' => some '\x0c'
  | 'n' => some '\n'
  | 'r' => some '\r'
  | 't' => some '\t'
  | _ => none

/-- A character in front of what is read behind it. -/
def cons (c : Char) (read : Option (List Char × List Char)) :
    Option (List Char × List Char) :=
  read.map fun (cs, rest) => (c :: cs, rest)

/-- A string up to its closing quote, and what follows. -/
def stringBody : List Char → Option (List Char × List Char)
  | [] => none
  | '"' :: rest => some ([], rest)
  | '\\' :: 'u' :: a :: b :: c :: d :: rest =>
    match hexUnit? a b c d with
    | none => none
    | some unit =>
      if unit < 0xd800 ∨ 0xe000 ≤ unit then cons (Char.ofNat unit) (stringBody rest)
      else if 0xdc00 ≤ unit then none
      else match rest with
        | '\\' :: 'u' :: a :: b :: c :: d :: rest =>
          match hexUnit? a b c d with
          | none => none
          | some low =>
            if 0xdc00 ≤ low ∧ low < 0xe000 then
              cons (Char.ofNat (0x10000 + (unit - 0xd800) * 0x400 + (low - 0xdc00)))
                (stringBody rest)
            else none
        | _ => none
  | '\\' :: c :: rest =>
    match simpleEscape? c with
    | none => none
    | some c => cons c (stringBody rest)
  | c :: rest => if c.toNat < 0x20 then none else cons c (stringBody rest)

/-- The exponent of a number text, if one begins here. -/
def exponentPart : List Char → Option (Option Int × List Char)
  | [] => some (none, [])
  | c :: rest =>
    if c = 'e' ∨ c = 'E' then
      let (negative, rest) := Decimal.splitSign rest
      let (ds, rest) := rest.span Char.isDigit
      let n := (Decimal.digitsValue 0 ds : Int)
      if ds = [] then none else some (some (if negative then -n else n), rest)
    else some (none, c :: rest)

/-- The minus in front of a number text, if there is one, and what follows. -/
def minusPart : List Char → Bool × List Char
  | '-' :: rest => (true, rest)
  | s => (false, s)

/-- The digits behind the point of a number text, if a point comes here. -/
def fractionPart : List Char → Option (List Char × List Char)
  | '.' :: rest =>
    let (ds, rest) := rest.span Char.isDigit
    if ds = [] then none else some (ds, rest)
  | s => some ([], s)

/-- The parts of the number text at the front. Zero may not be followed by digits, and a point must
be. -/
def numberText? (s : List Char) : Option (NumberText × List Char) := do
  let (negative, s) := minusPart s
  let (whole, s) := s.span Char.isDigit
  if whole = [] ∨ (whole.head? = some '0' ∧ 1 < whole.length) then none
  else
    let (fraction, s) ← fractionPart s
    let (exponent, s) ← exponentPart s
    some (⟨negative, whole, fraction, exponent⟩, s)

/-- The text behind a given word. -/
def afterWord? (word s : List Char) : Option (List Char) :=
  if word.isPrefixOf s then some (s.drop word.length) else none

mutual

/-- A value and what follows it. `depth` more arrays and objects may be opened. -/
def value (rule : NumberRule) : Nat → Nat → List Char → Option (Json × List Char)
  | 0, _, _ => none
  | fuel + 1, depth, s =>
    match skipSpace s with
    | [] => none
    | '"' :: rest => (stringBody rest).map fun (cs, rest) => (.str (String.ofList cs), rest)
    | '[' :: rest =>
      if depth = 0 then none
      else match skipSpace rest with
        | ']' :: rest => some (.arr [], rest)
        | rest => (items rule fuel (depth - 1) rest).map fun (vs, rest) => (.arr vs, rest)
    | '\x7b' :: rest =>
      if depth = 0 then none
      else match skipSpace rest with
        | '\x7d' :: rest => some (.obj [], rest)
        | rest => (fields rule fuel (depth - 1) rest).map fun (fs, rest) => (.obj fs, rest)
    | 't' :: rest => (afterWord? "rue".toList rest).map fun rest => (.bool true, rest)
    | 'f' :: rest => (afterWord? "alse".toList rest).map fun rest => (.bool false, rest)
    | 'n' :: rest => (afterWord? "ull".toList rest).map fun rest => (.null, rest)
    | s => (numberText? s).bind fun (t, rest) => (rule t).map fun v => (v, rest)

/-- The items of an array up to its closing bracket. -/
def items (rule : NumberRule) : Nat → Nat → List Char → Option (List Json × List Char)
  | 0, _, _ => none
  | fuel + 1, depth, s =>
    match value rule fuel depth s with
    | none => none
    | some (v, rest) =>
      match skipSpace rest with
      | ']' :: rest => some ([v], rest)
      | ',' :: rest => (items rule fuel depth rest).map fun (vs, rest) => (v :: vs, rest)
      | _ => none

/-- The fields of an object up to its closing brace. -/
def fields (rule : NumberRule) : Nat → Nat → List Char → Option (List (String × Json) × List Char)
  | 0, _, _ => none
  | fuel + 1, depth, s =>
    match skipSpace s with
    | '"' :: rest =>
      match stringBody rest with
      | none => none
      | some (name, rest) =>
        match skipSpace rest with
        | ':' :: rest =>
          match value rule fuel depth rest with
          | none => none
          | some (v, rest) =>
            let field := (String.ofList name, v)
            match skipSpace rest with
            | '\x7d' :: rest => some ([field], rest)
            | ',' :: rest => (fields rule fuel depth rest).map fun (fs, rest) => (field :: fs, rest)
            | _ => none
        | _ => none
    | _ => none

end

/-- Reads a document. Every step takes a character, so twice the length is fuel enough. -/
def parse? (rule : NumberRule) (s : String) : Option Json :=
  let cs := s.toList
  match value rule (2 * cs.length + 2) 127 cs with
  | some (v, rest) => if (skipSpace rest).isEmpty then some v else none
  | none => none

end Cadence.Json
