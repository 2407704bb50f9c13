/-!
# Keys

Every stateful iteration works on a key of its own: a stem, the worker, the iteration of that
worker, and a time that keeps the keys of different runs apart.

Section 4.1 of the specification.
-/

namespace Cadence.Key

/-- A moment in milliseconds, written in decimal. -/
def stamp (millis : Int) : String :=
  if millis < 0 then "-" ++ Nat.repr millis.natAbs else Nat.repr millis.natAbs

/-- The key of a worker's iteration at a moment (4.1). -/
def text (stem : String) (worker iteration : Nat) (millis : Int) : String :=
  stem ++ "-" ++ Nat.repr worker ++ "-" ++ Nat.repr iteration ++ "-" ++ stamp millis

end Cadence.Key
