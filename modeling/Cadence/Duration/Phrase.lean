import Cadence.Duration
import Cadence.Text.Blank
import Cadence.Text.Quoted

/-!
# Duration phrases

Reads phrases such as `1h 30m` or `1.5s`: numbers, each with a unit, that are added up. Blanks may
stand anywhere but inside a unit. A fraction has to come out at a whole number of nanoseconds, and
from hours on at a whole number of seconds; every number on the way has to stay below `2 ^ 64`.

Section 10.4 of the specification.
-/

namespace Cadence

/-- Why a phrase is refused; offsets count bytes. -/
inductive PhraseFault where
  | empty
  | numberExpected (offset : Nat)
  | invalidCharacter (offset : Nat)
  | unitNeeded (number : Nat)
  | unknownUnit (unit : String)
  | outOfRange
  deriving Repr, DecidableEq

/-- What is said about a refused phrase. -/
def PhraseFault.message : PhraseFault → String
  | empty => "value was empty"
  | numberExpected offset => "expected number at " ++ Nat.repr offset
  | invalidCharacter offset => "invalid character at " ++ Nat.repr offset
  | unitNeeded number =>
    let n := Nat.repr number
    "time unit needed, for example " ++ n ++ "sec or " ++ n ++ "ms"
  | unknownUnit unit =>
    "unknown time unit " ++ Text.quoted unit ++ ", supported units: ns, us/µs, ms, sec, min, " ++
      "hours, days, weeks, months, years (and few variations)"
  | outOfRange =>
    "number is too large or cannot be represented without a lack of precision " ++
      "(values below 1ns are not supported)"

namespace Duration

/-- What a unit is worth. -/
inductive TimeUnit where
  | nanos (count : Nat)
  | seconds (count : Nat)
  deriving Repr, DecidableEq

/-- A month is a twelfth of a year of 365.28 days, a year has 365.25 days. -/
def units : List (List String × TimeUnit) :=
  [(["nanos", "nsec", "ns"], .nanos 1),
    (["usec", "us", "µs"], .nanos 1000),
    (["millis", "msec", "ms"], .nanos 1000000),
    (["seconds", "second", "secs", "sec", "s"], .seconds 1),
    (["minutes", "minute", "min", "mins", "m"], .seconds 60),
    (["hours", "hour", "hrs", "hr", "h"], .seconds 3600),
    (["days", "day", "d"], .seconds 86400),
    (["weeks", "week", "wk", "wks", "w"], .seconds 604800),
    (["months", "month", "M"], .seconds 2630016),
    (["years", "year", "yr", "yrs", "y"], .seconds 31557600)]

def unit? (name : String) : Option TimeUnit :=
  (units.find? fun (names, _) => names.contains name).map (·.2)

/-- A number as it is written: its digits before the point, and behind it, if there is a point. -/
structure Amount where
  whole : Nat
  fraction : Option (Nat × Nat)
  deriving Repr

/-- A number that fits 64 bits. -/
def word (n : Nat) : Except PhraseFault Nat :=
  if n < UInt64.size then .ok n else .error .outOfRange

/-- A quotient without a remainder. -/
def exactly (numerator denominator : Nat) : Except PhraseFault Nat :=
  if numerator % denominator = 0 then .ok (numerator / denominator) else .error .outOfRange

/-- The seconds and nanoseconds of the whole part of an amount. -/
def wholeParts (whole : Nat) : TimeUnit → Except PhraseFault (Nat × Nat)
  | .nanos count => do .ok (0, ← word (whole * count))
  | .seconds count => do .ok (← word (whole * count), 0)

/-- The seconds and nanoseconds of the fraction of an amount. -/
def fractionParts (numerator denominator : Nat) : TimeUnit → Except PhraseFault (Nat × Nat)
  | .nanos count => do
    if count = 1 then .error .outOfRange
    else .ok (0, ← exactly (← word (numerator * count)) denominator)
  | .seconds count => do
    if count < 3600 then
      .ok (0, ← exactly (← word (numerator * (count * 1000000000))) denominator)
    else .ok (← exactly (← word (numerator * count)) denominator, 0)

/-- Adds seconds and nanoseconds; every sum on the way has to fit 64 bits. -/
def addParts (total : Duration) (parts : Nat × Nat) : Except PhraseFault Duration := do
  let nanos ← word (total.subsecNanos + parts.2)
  let secs ← word (parts.1 + nanos / 1000000000)
  let secs ← word (total.secs + secs)
  .ok (.ofParts secs (nanos % 1000000000))

/-- Adds an amount in a unit. -/
def addAmount (total : Duration) (amount : Amount) (name : List Char) :
    Except PhraseFault Duration := do
  if name.isEmpty then .error (.unitNeeded amount.whole)
  else match unit? (String.ofList name) with
    | none => .error (.unknownUnit (String.ofList name))
    | some unit =>
      let total ← total.addParts (← wholeParts amount.whole unit)
      match amount.fraction with
      | none => .ok total
      | some (numerator, denominator) =>
        total.addParts (← fractionParts numerator denominator unit)

/-- A character that units are written with. -/
def isUnitChar (c : Char) : Bool := c.isAlpha || c == 'µ'

def digit (c : Char) : Nat := c.toNat - '0'.toNat

mutual

/-- Looks for the first digit of a number; `begun` is where the search began. A phrase may end here
unless it has no number at all. -/
def readNumber (total : Option Duration) (begun offset : Nat) :
    List Char → Except PhraseFault Duration
  | [] =>
    match total with
    | none => .error .empty
    | some total => .ok total
  | c :: rest =>
    let next := offset + c.utf8Size
    if c.isDigit then readWhole (total.getD zero) (digit c) next rest
    else if Text.isBlank c then readNumber total begun next rest
    else .error (.numberExpected begun)

/-- Reads on in the whole part of a number. -/
def readWhole (total : Duration) (n offset : Nat) : List Char → Except PhraseFault Duration
  | [] => .error (.unitNeeded n)
  | c :: rest =>
    let next := offset + c.utf8Size
    if c.isDigit then
      match word (10 * n + digit c) with
      | .ok n => readWhole total n next rest
      | .error fault => .error fault
    else if Text.isBlank c then readWhole total n next rest
    else if isUnitChar c then readUnit total ⟨n, none⟩ [c] next rest
    else if c = '.' then readFraction total n 0 1 offset next rest
    else .error (.invalidCharacter offset)

/-- Reads on behind the point of a number. What is reported is the place behind the last character
that belonged to the number. -/
def readFraction (total : Duration) (whole numerator denominator reported offset : Nat) :
    List Char → Except PhraseFault Duration
  | [] => .error (if denominator = 1 then .invalidCharacter reported else .unitNeeded whole)
  | c :: rest =>
    let next := offset + c.utf8Size
    if c.isDigit then
      match word (10 * denominator), word (10 * numerator + digit c) with
      | .ok denominator, .ok numerator =>
        readFraction total whole numerator denominator next next rest
      | .error fault, _ => .error fault
      | _, .error fault => .error fault
    else if Text.isBlank c then readFraction total whole numerator denominator next next rest
    else if isUnitChar c then
      if denominator = 1 then .error (.invalidCharacter reported)
      else readUnit total ⟨whole, some (numerator, denominator)⟩ [c] next rest
    else .error (.invalidCharacter reported)

/-- Reads on in a unit, whose characters are collected in reverse. -/
def readUnit (total : Duration) (amount : Amount) (name : List Char) (offset : Nat) :
    List Char → Except PhraseFault Duration
  | [] => total.addAmount amount name.reverse
  | c :: rest =>
    let next := offset + c.utf8Size
    if c.isDigit then
      match total.addAmount amount name.reverse with
      | .ok total => readWhole total (digit c) next rest
      | .error fault => .error fault
    else if Text.isBlank c then
      match total.addAmount amount name.reverse with
      | .ok total => readNumber (some total) next next rest
      | .error fault => .error fault
    else if isUnitChar c then readUnit total amount (c :: name) next rest
    else .error (.invalidCharacter offset)

end

/-- Reads a phrase. Zero may stand without a unit. -/
def ofPhrase (phrase : List Char) : Except PhraseFault Duration :=
  if phrase = ['0'] then .ok zero else readNumber none 0 0 phrase

end Duration

end Cadence
