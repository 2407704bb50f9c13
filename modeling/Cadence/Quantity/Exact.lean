import Cadence.Quantity
import Mathlib

/-!
# Exact quantities

Fractions as quantities. Reductions in them are free of rounding, so that their laws can be stated
as laws of arithmetic.
-/

namespace Cadence.Quantity

/-- The exact value of a finite float, zero for the others. -/
def ratOfFloat (x : Float) : Rat :=
  match x.toModel.unpack with
  | .finite s m e _ =>
    let value : Rat := mkRat (m * Decimal.powerAbove 2 e) (Decimal.powerBelow 2 e)
    match s with
    | .negative => -value
    | .positive => value
  | _ => 0

instance : Quantity Rat where
  ofNat n := n
  ofFloat := ratOfFloat
  clamp low high x := max low (min high x)
  floor x := ⌊x⌋.toNat
  ceil x := ⌈x⌉.toNat

end Cadence.Quantity
