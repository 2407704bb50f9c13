/-!
# Shortest decimals

Of the decimals that round to a given binary floating point number, the ones with the fewest
digits, and of those the nearest. The search is exact: it compares natural numbers only.
-/

namespace Cadence

/-- The number `coefficient · 10 ^ exponent`. -/
structure Decimal where
  coefficient : Nat
  exponent : Int
  deriving Repr, DecidableEq, Inhabited

namespace Decimal

/-- Where a number goes that lies half way between its two neighbours. -/
inductive Tie where
  | up
  | toEven
  deriving Repr, DecidableEq

/-- The greater neighbour is taken from `below`, given how the number compares with the middle. -/
def Tie.roundsUp (tie : Tie) (below : Nat) : Ordering → Bool
  | .lt => false
  | .gt => true
  | .eq => match tie with
    | .up => true
    | .toEven => below % 2 == 1

/-- `numerator / denominator` to the nearest natural number. -/
def roundDiv (numerator denominator : Nat) (tie : Tie) : Nat :=
  let below := numerator / denominator
  let middle := compare (2 * (numerator % denominator)) denominator
  if tie.roundsUp below middle then below + 1 else below

/-- What a number is multiplied by in `base ^ exponent`. -/
def powerAbove (base : Nat) (exponent : Int) : Nat := Nat.pow base exponent.toNat

/-- What a number is divided by in `base ^ exponent`. -/
def powerBelow (base : Nat) (exponent : Int) : Nat := Nat.pow base (-exponent).toNat

/-- The number of decimal digits of a natural number. -/
def digitCount (n : Nat) : Nat := (Nat.toDigits 10 n).length

/-- The decimals that round to `mantissa · 2 ^ exponent`, measured in fractions of a common
denominator: everything strictly between `low` and `high`, and the two ends if `closed`. -/
structure Interval where
  low : Nat
  value : Nat
  high : Nat
  denominator : Nat
  closed : Bool

/-- The least exponent of a double. -/
def leastExponent : Int := -1074

/-- The least mantissa of a double above the subnormal ones. -/
def leastMantissa : Nat := Nat.pow 2 52

/-- The rounding interval of a positive double. The gap below a power of two is half the gap
above it; ends belong to the interval when the mantissa is even. -/
def Interval.ofDouble (mantissa : Nat) (exponent : Int) : Interval :=
  let narrow := mantissa == leastMantissa && leastExponent < exponent
  let scale := powerAbove 2 (exponent - 2)
  { low := (4 * mantissa - if narrow then 1 else 2) * scale
    value := 4 * mantissa * scale
    high := (4 * mantissa + 2) * scale
    denominator := powerBelow 2 (exponent - 2)
    closed := mantissa % 2 == 0 }

/-- Whether `coefficient · 10 ^ exponent` lies in the interval. -/
def Interval.contains (i : Interval) (coefficient : Nat) (exponent : Int) : Bool :=
  let point := coefficient * powerAbove 10 exponent * i.denominator
  let up := powerBelow 10 exponent
  if i.closed then i.low * up ≤ point && point ≤ i.high * up
  else i.low * up < point && point < i.high * up

/-- One more than the decimal exponent of the leading digit. No double lies below `10 ^ -324`. -/
def Interval.leading (i : Interval) : Int :=
  (digitCount (i.value * Nat.pow 10 324 / i.denominator) : Int) - 324

/-- The better of the two neighbours of the value on the grid of step `10 ^ exponent`, if one of
them lies in the interval. -/
def Interval.onGrid? (i : Interval) (tie : Tie) (exponent : Int) : Option Decimal :=
  let numerator := i.value * powerBelow 10 exponent
  let denominator := i.denominator * powerAbove 10 exponent
  let below := numerator / denominator
  match i.contains below exponent, i.contains (below + 1) exponent with
  | true, false => some ⟨below, exponent⟩
  | false, true => some ⟨below + 1, exponent⟩
  | true, true => some ⟨roundDiv numerator denominator tie, exponent⟩
  | false, false => none

/-- The same number with a coefficient that does not end in zero. -/
def normalize (d : Decimal) : Decimal :=
  if h : d.coefficient % 10 = 0 ∧ d.coefficient ≠ 0 then
    normalize ⟨d.coefficient / 10, d.exponent + 1⟩
  else d
termination_by d.coefficient
decreasing_by omega

/-- Grids are tried from one digit to seventeen, which always suffice for a double. -/
def shortest (tie : Tie) (mantissa : Nat) (exponent : Int) : Decimal :=
  let interval := Interval.ofDouble mantissa exponent
  let leading := interval.leading
  let found := (List.range 17).findSome? fun n => interval.onGrid? tie (leading - (n + 1 : Nat))
  normalize (found.getD ⟨interval.value / interval.denominator, 0⟩)

end Decimal

end Cadence
