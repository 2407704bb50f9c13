import Cadence.Decimal.Shortest

/-!
# Durations

Lengths of time in whole nanoseconds, and the timer resolution of a run: timers fire at whole
milliseconds, never early.
-/

namespace Cadence

/-- Why a number of seconds is no length of time. -/
inductive SecondsFault where
  | negative
  /-- More seconds than 64 bits hold, or no number at all. -/
  | excessive
  deriving Repr, DecidableEq

/-- What is said about a number of seconds that is no length of time. -/
def SecondsFault.message : SecondsFault → String
  | negative => "cannot convert float seconds to Duration: value is negative"
  | excessive => "cannot convert float seconds to Duration: value is either too big or NaN"

/-- A length of time. -/
structure Duration where
  nanos : Nat
  deriving Repr, DecidableEq, Inhabited

namespace Duration

def zero : Duration := ⟨0⟩

def ofParts (secs nanos : Nat) : Duration := ⟨secs * 1000000000 + nanos⟩

def ofSecs (secs : Nat) : Duration := ofParts secs 0

def ofMillis (millis : Nat) : Duration := ⟨millis * 1000000⟩

/-- Whole seconds. -/
def secs (d : Duration) : Nat := d.nanos / 1000000000

/-- Nanoseconds beyond the whole seconds. -/
def subsecNanos (d : Duration) : Nat := d.nanos % 1000000000

/-- Whole milliseconds. -/
def millis (d : Duration) : Nat := d.nanos / 1000000

def isZero (d : Duration) : Bool := d.nanos == 0

/-- Rounds an offset in nanoseconds up to the timer resolution, in milliseconds. -/
def timerTick (nanos : Nat) : Nat := (nanos + 999999) / 1000000

/-- Seconds as a floating point number: whole seconds plus the rest divided by a billion. -/
def toSeconds (d : Duration) : Float :=
  Float.ofNat d.secs + Float.ofNat d.subsecNanos / 1000000000

/-- The whole number of nanoseconds nearest to a number of seconds; a half goes to the even
neighbour, and what is no positive number gives no time at all. -/
def ofSeconds (seconds : Float) : Duration :=
  match seconds.toModel.unpack with
  | .finite .positive m e _ =>
    ⟨Decimal.roundDiv (m * Decimal.powerAbove 2 e * 1000000000) (Decimal.powerBelow 2 e) .toEven⟩
  | _ => zero

/-- A number of seconds as a length of time, unless there is none. -/
def ofSeconds? (seconds : Float) : Except SecondsFault Duration :=
  if seconds < 0 then .error .negative
  else if seconds.isFinite && (ofSeconds seconds).secs < UInt64.size then .ok (ofSeconds seconds)
  else .error .excessive

end Duration

end Cadence
