import Cadence.Json
import Cadence.Toml.Text

/-!
# Numbers and moments in TOML
-/

namespace Cadence.Toml

/-- The characters that numbers and moments are written with. -/
def isNumberChar (c : Char) : Bool :=
  c.isAlphanum || c == '_' || c == '+' || c == '-' || c == '.' || c == ':'

/-- Digits with single underscores between them, the underscores dropped. -/
def digits? (isDigit : Char → Bool) (s : List Char) : Option (List Char) :=
  let rec go : Bool → List Char → Option (List Char)
    | afterDigit, [] => if afterDigit then some [] else none
    | afterDigit, c :: rest =>
      if isDigit c then (go true rest).map (c :: ·)
      else if c = '_' ∧ afterDigit then go false rest
      else none
  go false s

/-- An integer of 64 bits with sign. -/
def bounded? (n : Int) : Option Json :=
  if Int64.minValue.toInt ≤ n ∧ n ≤ Int64.maxValue.toInt then some (.int n) else none

/-- An integer with a base other than ten. -/
def based? (base : Nat) (s : List Char) : Option Json := do
  let ds ← digits? (fun c => (hexDigit? c).any (· < base)) s
  let ds ← ds.mapM hexDigit?
  let n : Nat := ds.foldl (fun n d => base * n + d) 0
  bounded? n

/-- Decimal digits without a zero in front of others. -/
def wholePart? (s : List Char) : Option (List Char) := do
  let ds ← digits? Char.isDigit s
  if ds.head? = some '0' ∧ 1 < ds.length then none else some ds

/-- A decimal integer. -/
def integer? (s : List Char) : Option Json := do
  let (negative, s) := Decimal.splitSign s
  let n : Int := Decimal.digitsValue 0 (← wholePart? s)
  bounded? (if negative then -n else n)

def signedFloat? (negative : Bool) (x : Float) : Option Json :=
  some (.float (if negative then -x else x))

/-- A number with a fraction or an exponent, or one of the words; it has to be finite as far as
digits write it. -/
def float? (s : List Char) : Option Json := do
  let (negative, s) := Decimal.splitSign s
  if s = ['i', 'n', 'f'] then signedFloat? negative (1.0 / 0.0)
  else if s = ['n', 'a', 'n'] then signedFloat? negative (0.0 / 0.0)
  else
    let isMark (c : Char) : Bool := c == 'e' || c == 'E'
    let mantissa := s.takeWhile (!isMark ·)
    let whole ← wholePart? (mantissa.takeWhile (· != '.'))
    let fraction ← match mantissa.dropWhile (· != '.') with
      | [] => some []
      | _ :: part => digits? Char.isDigit part
    let exponent ← match s.dropWhile (!isMark ·) with
      | [] => some 0
      | _ :: part =>
        let (negative, part) := Decimal.splitSign part
        (digits? Char.isDigit part).map fun ds =>
          let n : Int := Decimal.digitsValue 0 ds
          if negative then -n else n
    let n := Decimal.digitsValue (Decimal.digitsValue 0 whole) fraction
    let x := Decimal.toDouble n (exponent - fraction.length)
    if x.isFinite then signedFloat? negative x else none

/-- A number of a fixed count of digits within bounds, and what follows it. -/
def fixedDigits? (count low high : Nat) (s : List Char) : Option (Nat × List Char) :=
  let ds := s.take count
  let n := Decimal.digitsValue 0 ds
  if ds.length = count ∧ ds.all Char.isDigit ∧ low ≤ n ∧ n ≤ high then some (n, s.drop count)
  else none

def expect? (c : Char) : List Char → Option (List Char)
  | d :: rest => if c = d then some rest else none
  | [] => none

/-- The number of days of a month. -/
def monthDays (year month : Nat) : Nat :=
  if month = 2 then if (year % 4 = 0 ∧ year % 100 ≠ 0) ∨ year % 400 = 0 then 29 else 28
  else if month = 4 ∨ month = 6 ∨ month = 9 ∨ month = 11 then 30
  else 31

/-- The text of a date at the front, and what follows it. -/
def date? (s : List Char) : Option (List Char × List Char) := do
  let (year, rest) ← fixedDigits? 4 0 9999 s
  let (month, rest) ← fixedDigits? 2 1 12 (← expect? '-' rest)
  let (_, rest) ← fixedDigits? 2 1 (monthDays year month) (← expect? '-' rest)
  some (s.take 10, rest)

/-- The text of a time at the front, and what follows it. Of a fraction nine digits count, and
zeros at its end are dropped. -/
def time? (s : List Char) : Option (List Char × List Char) := do
  let (_, rest) ← fixedDigits? 2 0 23 s
  let (_, rest) ← fixedDigits? 2 0 59 (← expect? ':' rest)
  let (_, rest) ← fixedDigits? 2 0 60 (← expect? ':' rest)
  match rest with
  | '.' :: rest =>
    let (ds, rest) := rest.span Char.isDigit
    let kept := ((ds.take 9).reverse.dropWhile (· == '0')).reverse
    if ds.isEmpty then none
    else some (s.take 8 ++ (if kept.isEmpty then [] else '.' :: kept), rest)
  | rest => some (s.take 8, rest)

/-- The text of an offset from UTC, if one stands at the end. -/
def offset? : List Char → Option (List Char)
  | [] => some []
  | ['Z'] | ['z'] => some ['Z']
  | c :: rest => do
    if c ≠ '+' ∧ c ≠ '-' then none
    else
      let (_, behind) ← fixedDigits? 2 0 23 rest
      let (_, behind) ← fixedDigits? 2 0 59 (← expect? ':' behind)
      if behind.isEmpty then some (c :: rest) else none

/-- A moment, a date or a time of day; it is kept as a text. -/
def moment? (s : List Char) : Option Json := do
  let text ← match date? s with
    | none => do
      let (time, rest) ← time? s
      if rest.isEmpty then some time else none
    | some (date, []) => some date
    | some (date, mark :: rest) =>
      if mark = 'T' ∨ mark = 't' ∨ mark = ' ' then do
        let (time, rest) ← time? rest
        some (date ++ 'T' :: time ++ (← offset? rest))
      else none
  some (.str (String.ofList text))

/-- The value of a text without quotes and brackets. -/
def bareValue? (s : List Char) : Option Json :=
  match s with
  | ['t', 'r', 'u', 'e'] => some (.bool true)
  | ['f', 'a', 'l', 's', 'e'] => some (.bool false)
  | '0' :: 'x' :: rest => based? 16 rest
  | '0' :: 'o' :: rest => based? 8 rest
  | '0' :: 'b' :: rest => based? 2 rest
  | s => integer? s <|> moment? s <|> float? s

/-- The text of a bare value at the front, and what follows it. A date may be followed by a blank
and a time. -/
def bareText (s : List Char) : List Char × List Char :=
  let (word, rest) := s.span isNumberChar
  match (date? word).map (·.2), rest with
  | some [], ' ' :: c :: behind =>
    if c.isDigit then
      let (time, rest) := (c :: behind).span isNumberChar
      (word ++ ' ' :: time, rest)
    else (word, rest)
  | _, _ => (word, rest)

end Cadence.Toml
