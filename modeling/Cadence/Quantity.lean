import Cadence.Sample

/-!
# Quantities

The numbers in which observations are reduced. A run reduces them in floating point; any other kind
of number, such as the exact fractions, can take its place.
-/

namespace Cadence

/-- Numbers that observations can be reduced in. -/
class Quantity (α : Type) extends Add α, Sub α, Mul α, Div α where
  ofNat : Nat → α
  ofFloat : Float → α
  /-- Moves a number into the range from the first to the second argument. -/
  clamp : α → α → α → α
  /-- The greatest natural number that is not above. -/
  floor : α → Nat
  /-- The least natural number that is not below. -/
  ceil : α → Nat

namespace Quantity

/-- What is no number is neither below nor above the range, so it stays. -/
def clampFloat (low high x : Float) : Float :=
  if x < low then low else if high < x then high else x

/-- Cuts off the places; what is no number gives zero. -/
def floorFloat (x : Float) : Nat := x.toUInt64.toNat

def ceilFloat (x : Float) : Nat :=
  let floor := floorFloat x
  if Float.ofNat floor < x then floor + 1 else floor

instance : Quantity Float where
  ofNat := Float.ofNat
  ofFloat := id
  clamp := clampFloat
  floor := floorFloat
  ceil := ceilFloat

/-- A duration in milliseconds. -/
def millis {α : Type} [Quantity α] (d : Duration) : α :=
  (ofNat d.nanos : α) / ofNat 1000000

/-- A share of a total; there is none of nothing. -/
def ratio {α : Type} [Quantity α] (part total : Nat) : Option α :=
  if total = 0 then none else some (ofNat part / ofNat total)

end Quantity

end Cadence
