/-!
# Punycode

Writes a label with characters beyond ASCII in the letters and digits of ASCII: first the characters
that can stay, then where the others go, as differences in a number system whose base adapts itself.
Reading puts the others in their places again.
-/

namespace Cadence.Url.Punycode

/-- The letters stand for 0 to 25, the digits for 26 to 35. -/
def digitChar (d : Nat) : Char := if d < 26 then Char.ofNat (0x61 + d) else Char.ofNat (0x16 + d)

/-- The threshold of the digit at a place. -/
def threshold (place bias : Nat) : Nat := max 1 (min 26 (place - bias))

/-- Divides by 35 until little is left. -/
def settle (delta place : Nat) : Nat × Nat :=
  if 455 < delta then settle (delta / 35) (place + 36) else (delta, place)
termination_by delta
decreasing_by omega

/-- The bias after a difference has been written. -/
def adapt (delta count : Nat) (first : Bool) : Nat :=
  let delta := if first then delta / 700 else delta / 2
  let (rest, place) := settle (delta + delta / count) 0
  place + 36 * rest / (rest + 38)

/-- A difference in digits, the least first. -/
def digits (bias place n : Nat) : List Char :=
  let t := threshold place bias
  if n < t then [digitChar n]
  else digitChar (t + (n - t) % (36 - t)) :: digits bias (place + 36) ((n - t) / (36 - t))
termination_by n
decreasing_by
  have : 1 ≤ threshold place bias := by unfold threshold; omega
  have := Nat.div_le_self (n - threshold place bias) (36 - threshold place bias)
  omega

/-- What has been written so far. -/
structure Writing where
  out : List Char
  delta : Nat
  bias : Nat
  done : Nat

/-- Passes over a character on the way to all places of a code point. -/
def Writing.pass (basics point : Nat) (writing : Writing) (c : Char) : Writing :=
  if c.toNat < point then { writing with delta := writing.delta + 1 }
  else if c.toNat = point then
    { out := writing.out ++ digits writing.bias 36 writing.delta
      delta := 0
      bias := adapt writing.delta (writing.done + 1) (writing.done == basics)
      done := writing.done + 1 }
  else writing

/-- Writes the places of code points, which come in ascending order, each from `next` on. -/
def places (label : List Char) (basics next : Nat) : List Nat → Writing → Writing
  | [], writing => writing
  | point :: rest, writing =>
    let writing := { writing with delta := writing.delta + (point - next) * (writing.done + 1) }
    let writing := label.foldl (Writing.pass basics point) writing
    places label basics (point + 1) rest { writing with delta := writing.delta + 1 }

/-- A label in letters and digits. -/
def encode (label : List Char) : List Char :=
  let basics := label.filter fun c => c.toNat < 0x80
  let points := ((label.map Char.toNat).filter (0x80 ≤ ·)).mergeSort.eraseDups
  let start : Writing := ⟨[], 0, 72, basics.length⟩
  basics ++ (if basics.isEmpty then [] else ['-']) ++
    (places label basics.length 0x80 points start).out

/-- The value of a digit in lower case. -/
def digitValue? (c : Char) : Option Nat :=
  if 'a' ≤ c ∧ c ≤ 'z' then some (c.toNat - 0x61)
  else if c.isDigit then some (c.toNat - 0x16)
  else none

/-- Reads a difference whose first digit has a weight, and gives the digits behind it. -/
def readDigits (bias place weight : Nat) : List Char → Option (Nat × List Char)
  | [] => none
  | c :: rest => do
    let digit ← digitValue? c
    let t := threshold place bias
    if digit < t then some (digit * weight, rest)
    else
      let (more, rest) ← readDigits bias (place + 36) (weight * (36 - t)) rest
      some (digit * weight + more, rest)

/-- What has been read so far. -/
structure Reading where
  out : List Char
  point : Nat
  place : Nat
  bias : Nat

/-- Puts the next character in its place. -/
def Reading.insert? (reading : Reading) (delta : Nat) : Option Reading :=
  let count := reading.out.length + 1
  let index := reading.place + delta
  let point := reading.point + index / count
  let place := index % count
  if point.isValidChar then
    some
      { out := reading.out.take place ++ Char.ofNat point :: reading.out.drop place
        point := point
        place := place + 1
        bias := adapt delta count (reading.place == 0) }
  else none

/-- Reads differences, at most so many, until no digits are left. -/
def readPlaces (reading : Reading) : Nat → List Char → Option (List Char)
  | _, [] => some reading.out
  | 0, _ => none
  | count + 1, digits => do
    let (delta, rest) ← readDigits reading.bias 36 1 digits
    readPlaces (← reading.insert? delta) count rest

/-- The label that is written in letters and digits, if any is. -/
def decode? (s : List Char) : Option (List Char) :=
  let (behind, front) := s.reverse.span (· != '-')
  let digits := behind.reverse
  readPlaces ⟨(front.drop 1).reverse, 0x80, 0, 72⟩ digits.length digits

end Cadence.Url.Punycode
