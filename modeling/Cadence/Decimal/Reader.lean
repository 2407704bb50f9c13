/-!
# Number texts

Reads a decimal text as the nearest double: an optional sign, then digits with at most one point
and at least one digit, then an optional exponent; or one of the words for infinity and for no
number, in any letter case.
-/

namespace Cadence.Decimal

/-- The value of a list of decimal digits read after `start`. -/
def digitsValue (start : Nat) (ds : List Char) : Nat :=
  ds.foldl (fun n c => 10 * n + (c.toNat - '0'.toNat)) start

/-- The sign of a text and what follows it. -/
def splitSign : List Char → Bool × List Char
  | '+' :: rest => (false, rest)
  | '-' :: rest => (true, rest)
  | s => (false, s)

/-- The exponent at the end of a number, zero if the text has ended. -/
def readExponent? : List Char → Option Int
  | [] => some 0
  | c :: rest =>
    if c = 'e' ∨ c = 'E' then
      let (negative, ds) := splitSign rest
      if ds ≠ [] ∧ ds.all Char.isDigit then
        let n := (digitsValue 0 ds : Int)
        some (if negative then -n else n)
      else none
    else none

/-- The double nearest to `coefficient · 10 ^ exponent`. Where the exponent alone decides that it is
zero or infinite, the power is not computed: a power of ten is greater than that of eight. -/
def toDouble (coefficient : Nat) (exponent : Int) : Float :=
  let size := exponent.natAbs
  if coefficient = 0 then 0
  else if exponent < 0 then
    if coefficient.log2 + 1200 < 3 * size then 0 else Float.ofScientific coefficient true size
  else if 400 < size then 1.0 / 0.0
  else Float.ofScientific coefficient false size

/-- Digits, point and exponent, without a sign. -/
def readDigits? (s : List Char) : Option Float :=
  let (whole, rest) := s.span Char.isDigit
  let (part, rest) := match rest with
    | '.' :: rest => rest.span Char.isDigit
    | rest => ([], rest)
  if whole = [] ∧ part = [] then none
  else
    (readExponent? rest).map fun exponent =>
      toDouble (digitsValue (digitsValue 0 whole) part) (exponent - part.length)

/-- The words for values that no digits name. -/
def readWord? (s : List Char) : Option Float :=
  let word := String.ofList (s.map Char.toLower)
  if word = "inf" ∨ word = "infinity" then some (1.0 / 0.0)
  else if word = "nan" then some (0.0 / 0.0)
  else none

/-- The double that a number text names. -/
def readChars? (s : List Char) : Option Float :=
  let (negative, body) := splitSign s
  ((readDigits? body).orElse fun _ => readWord? body).map fun x => if negative then -x else x

/-- The double that a number text names. -/
def read? (s : String) : Option Float := readChars? s.toList

end Cadence.Decimal
