import Cadence.Decimal.Layout
import Cadence.Setting
import Cadence.Text.Quoted

/-!
# Converting settings

What a setting is worth where a text, a number, a count or a switch is asked for. Sources that know
only texts are met halfway: words such as `yes` and `off` are switches, and switches are one or
zero.
-/

namespace Cadence

/-- A setting that is of another kind than asked for. -/
structure Mismatch where
  found : String
  expected : String
  deriving Repr

namespace Setting

/-- What is said about a setting of the wrong kind. -/
def described : Setting → String
  | scalar .null _ => "unit value"
  | scalar (.bool b) _ => "boolean `" ++ (if b then "true" else "false") ++ "`"
  | scalar (.int n) _ => "64-bit integer `" ++ toString n ++ "`"
  | scalar (.float x) _ => "floating point `" ++ Decimal.plain x ++ "`"
  | scalar (.text s) _ => "string " ++ Text.quoted s
  | list .. => "sequence"
  | table .. => "map"

def mismatch {α : Type} (setting : Setting) (expected : String) : Except Mismatch α :=
  .error ⟨setting.described, expected⟩

/-- The switch that a word stands for. -/
def word? (s : String) : Option Bool :=
  let word := s.map Char.toLower
  if ["true", "on", "yes"].contains word then some true
  else if ["false", "off", "no"].contains word then some false
  else none

/-- Numbers and switches are written out. -/
def toText (setting : Setting) : Except Mismatch String :=
  match setting with
  | scalar (.text s) _ => .ok s
  | scalar (.bool b) _ => .ok (if b then "true" else "false")
  | scalar (.int n) _ => .ok (toString n)
  | scalar (.float x) _ => .ok (Decimal.plain x)
  | _ => setting.mismatch "a string"

def toFloat (setting : Setting) : Except Mismatch Float :=
  let expected := "a floating point"
  match setting with
  | scalar (.float x) _ => .ok x
  | scalar (.int n) _ => .ok (Float.ofInt n)
  | scalar (.bool b) _ => .ok (if b then 1 else 0)
  | scalar (.text s) _ =>
    match word? s with
    | some b => .ok (if b then 1 else 0)
    | none =>
      match Decimal.read? s with
      | some x => .ok x
      | none => setting.mismatch expected
  | _ => setting.mismatch expected

/-- A float as a count: the nearest integer, a half going up, as far as it fits 64 bits; zero for
what is negative or no number. -/
def countOfFloat (x : Float) : Nat :=
  match x.toModel.unpack with
  | .finite .positive m e _ =>
    min (Decimal.roundDiv (m * Decimal.powerAbove 2 e) (Decimal.powerBelow 2 e) .up)
      (UInt64.size - 1)
  | .infinity .positive => UInt64.size - 1
  | _ => 0

/-- Reads a decimal number of 64 bits without sign; a plus may stand in front. -/
def countText? (s : String) : Option Nat :=
  let digits := match s.toList with
    | '+' :: rest => rest
    | cs => cs
  if digits.isEmpty || !digits.all Char.isDigit then none
  else
    let n := Decimal.digitsValue 0 digits
    if n < UInt64.size then some n else none

def toCount (setting : Setting) : Except Mismatch Nat :=
  let expected := "an integer"
  match setting with
  | scalar (.int n) _ =>
    if n < 0 then setting.mismatch "an unsigned 64 bit or less integer" else .ok n.toNat
  | scalar (.float x) _ => .ok (countOfFloat x)
  | scalar (.bool b) _ => .ok b.toNat
  | scalar (.text s) _ =>
    match word? s with
    | some b => .ok b.toNat
    | none =>
      match countText? s with
      | some n => .ok n
      | none => setting.mismatch expected
  | _ => setting.mismatch expected

def toSwitch (setting : Setting) : Except Mismatch Bool :=
  let expected := "a boolean"
  match setting with
  | scalar (.bool b) _ => .ok b
  | scalar (.int n) _ => .ok (n != 0)
  | scalar (.float x) _ => .ok (x != 0)
  | scalar (.text s) _ =>
    match if s == "1" then some true else if s == "0" then some false else word? s with
    | some b => .ok b
    | none => setting.mismatch expected
  | _ => setting.mismatch expected

end Setting

end Cadence
