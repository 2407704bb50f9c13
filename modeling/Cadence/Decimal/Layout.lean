import Cadence.Decimal.Shortest

/-!
# Layouts of numbers

How a floating point number is written: plain (never with an exponent), with a fixed number of
places, and as a JSON number. Each layout places the point in the digits of a decimal.
-/

namespace Cadence.Decimal

/-- The decimal digits of the coefficient. -/
def digits (d : Decimal) : List Char := Nat.toDigits 10 d.coefficient

/-- How many digits stand before the point; negative for zeros after it. -/
def point (d : Decimal) : Int := d.digits.length + d.exponent

/-- A row of zeros. -/
def zeros (n : Nat) : List Char := List.replicate n '0'

/-- Positional notation; an integer has no point. -/
def positional (d : Decimal) : List Char :=
  let ds := d.digits
  let point := d.point
  if d.coefficient = 0 then ['0']
  else if point ≤ 0 then '0' :: '.' :: (zeros (-point).toNat ++ ds)
  else if (ds.length : Int) ≤ point then ds ++ zeros (point - ds.length).toNat
  else ds.take point.toNat ++ '.' :: ds.drop point.toNat

/-- Scientific notation: one digit before the point. -/
def scientific (d : Decimal) : List Char :=
  let exponent := d.point - 1
  let mark := 'e' :: (if exponent < 0 then '-' else '+') :: Nat.toDigits 10 exponent.natAbs
  match d.digits with
  | [] => mark
  | [c] => c :: mark
  | c :: rest => c :: '.' :: rest ++ mark

/-- JSON writes a number positionally while its point stays within sixteen digits to the right and
five places to the left, and keeps `.0` on integers. -/
def jsonNumber (d : Decimal) : List Char :=
  let point := d.point
  if d.coefficient = 0 then ['0', '.', '0']
  else if 0 ≤ d.exponent && point ≤ 16 then d.positional ++ ['.', '0']
  else if -5 < point && point ≤ 16 then d.positional
  else d.scientific

/-- Exactly `places` digits after the point. -/
def withPlaces (scaled places : Nat) : List Char :=
  let ds := Nat.toDigits 10 scaled
  let ds := zeros (places + 1 - ds.length) ++ ds
  let whole := ds.take (ds.length - places)
  if places = 0 then whole else whole ++ '.' :: ds.drop (ds.length - places)

/-- Writes a float by its sign and the layout of its positive finite values. -/
def write (zero : List Char) (layout : Nat → Int → List Char) (x : Float) : List Char :=
  let signed : Float.Model.UnpackedFloat.Sign → List Char → List Char
    | .negative, s => '-' :: s
    | .positive, s => s
  match x.toModel.unpack with
  | .notANumber => "NaN".toList
  | .infinity s => signed s "inf".toList
  | .zero s => signed s zero
  | .finite s m e _ => signed s (layout m e)

/-- The shortest digits that read back, in positional notation; ties go up. -/
def plain (x : Float) : String :=
  String.ofList (write ['0'] (fun m e => (shortest .up m e).positional) x)

/-- The exact value rounded to `places` digits after the point; a half goes to the even digit. -/
def fixed (places : Nat) (x : Float) : String :=
  let layout (m : Nat) (e : Int) :=
    withPlaces (roundDiv (m * powerAbove 2 e * Nat.pow 10 places) (powerBelow 2 e) .toEven) places
  String.ofList (write (withPlaces 0 places) layout x)

/-- The JSON number of a finite float, and `null` for the others; ties go to the even digit. -/
def json (x : Float) : String :=
  if x.isFinite then
    String.ofList (write ['0', '.', '0'] (fun m e => (shortest .toEven m e).jsonNumber) x)
  else "null"

end Cadence.Decimal
