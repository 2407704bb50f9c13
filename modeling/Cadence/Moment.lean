/-!
# Moments

A moment of civil time in UTC, and its RFC 3339 text. A second has 0, 3, 6 or 9 digits of fraction,
as many as are needed; a leap second is written as second 60; years outside 0 to 9999 have a sign.
-/

namespace Cadence

/-- Seconds since the start of 1970 and nanoseconds beyond; a billion of them and more belong to a
leap second. -/
structure Moment where
  secs : Int
  nanos : Nat
  deriving Repr, DecidableEq, Inhabited

/-- A day of the Gregorian calendar. -/
structure CivilDay where
  year : Int
  month : Nat
  day : Nat
  deriving Repr, DecidableEq

/-- How the zone of a moment is written. -/
inductive ZoneMark where
  /-- `Z` -/
  | zulu
  /-- `+00:00` -/
  | offset
  deriving Repr, DecidableEq

def ZoneMark.text : ZoneMark → String
  | zulu => "Z"
  | offset => "+00:00"

/-- The day so many days after the first of 1970. Years are counted from March, in cycles of 400
years that have 146097 days. -/
def CivilDay.ofDays (days : Int) : CivilDay :=
  let shifted := days + 719468
  let era := Int.fdiv shifted 146097
  let dayOfEra := (Int.fmod shifted 146097).toNat
  let yearOfEra :=
    (dayOfEra - dayOfEra / 1460 + dayOfEra / 36524 - dayOfEra / 146096) / 365
  let dayOfYear := dayOfEra - (365 * yearOfEra + yearOfEra / 4 - yearOfEra / 100)
  let marchMonth := (5 * dayOfYear + 2) / 153
  let day := dayOfYear - (153 * marchMonth + 2) / 5 + 1
  let month := if marchMonth < 10 then marchMonth + 3 else marchMonth - 9
  { year := yearOfEra + era * 400 + if month ≤ 2 then 1 else 0, month, day }

namespace Moment

/-- A number with zeros in front, up to a width. -/
def padded (width n : Nat) : String :=
  let digits := Nat.repr n
  String.ofList (List.replicate (width - digits.length) '0') ++ digits

/-- A year of four digits, with a sign unless it lies between 0 and 9999. -/
def yearText (year : Int) : String :=
  if 0 ≤ year ∧ year ≤ 9999 then padded 4 year.natAbs
  else (if year < 0 then "-" else "+") ++ padded 4 year.natAbs

/-- The fraction of a second, in groups of three digits. -/
def fractionText (nanos : Nat) : String :=
  if nanos = 0 then ""
  else if nanos % 1000000 = 0 then "." ++ padded 3 (nanos / 1000000)
  else if nanos % 1000 = 0 then "." ++ padded 6 (nanos / 1000)
  else "." ++ padded 9 nanos

/-- The RFC 3339 text of a moment. -/
def text (moment : Moment) (mark : ZoneMark) : String :=
  let day := CivilDay.ofDays (Int.fdiv moment.secs 86400)
  let second := (Int.fmod moment.secs 86400).toNat
  let leap := 1000000000 ≤ moment.nanos
  yearText day.year ++ "-" ++ padded 2 day.month ++ "-" ++ padded 2 day.day ++ "T" ++
    padded 2 (second / 3600) ++ ":" ++ padded 2 (second / 60 % 60) ++ ":" ++
    padded 2 (second % 60 + if leap then 1 else 0) ++
    fractionText (if leap then moment.nanos - 1000000000 else moment.nanos) ++ mark.text

end Moment

end Cadence
