/-!
# Run ids

A run is identified by 128 bits, written as 32 hexadecimal digits in five groups.
-/

namespace Cadence

structure RunId where
  value : Nat
  deriving Repr, DecidableEq, Inhabited

namespace RunId

/-- The lengths of the groups. -/
def groups : List Nat := [8, 4, 4, 4, 12]

/-- The 32 digits, in lower case. -/
def digits (id : RunId) : List Char :=
  (List.range 32).map fun i => Nat.digitChar ((id.value >>> (4 * (31 - i))) % 16)

/-- Cuts a list into pieces of given lengths. -/
def cut {α : Type} : List Nat → List α → List (List α)
  | [], _ => []
  | n :: ns, xs => xs.take n :: cut ns (xs.drop n)

/-- How an id is written. -/
def text (id : RunId) : String :=
  "-".intercalate ((cut groups id.digits).map String.ofList)

/-- The value of a hexadecimal digit of either case. -/
def digitValue? (c : Char) : Option Nat :=
  if c.isDigit then some (c.toNat - '0'.toNat)
  else if 'a' ≤ c ∧ c ≤ 'f' then some (c.toNat - 'a'.toNat + 10)
  else if 'A' ≤ c ∧ c ≤ 'F' then some (c.toNat - 'A'.toNat + 10)
  else none

/-- Reads 32 digits with or without the hyphens between the groups. -/
def parse? (s : String) : Option RunId :=
  let cs := s.toList
  let joined := (cut [8, 1, 4, 1, 4, 1, 4, 1, 12] cs)
  let plain := if cs.length = 36 then
      if [1, 3, 5, 7].all fun i => joined[i]? == some ['-'] then cs.filter (· != '-') else []
    else cs
  if plain.length = 32 then
    (plain.mapM digitValue?).map fun ds => ⟨ds.foldl (fun n d => 16 * n + d) 0⟩
  else none

/-- Marks 128 random bits as a random id: version 4, variant 1. -/
def ofRandom (bits : Nat) : RunId :=
  let value := bits % (1 <<< 128)
  let versioned := value - (value >>> 76 % 16) <<< 76 + 4 <<< 76
  ⟨versioned - (versioned >>> 62 % 4) <<< 62 + 2 <<< 62⟩

end RunId

end Cadence
