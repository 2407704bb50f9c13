import Cadence.Decimal.Layout
import Cadence.Json

/-!
# JSON texts

Writes a JSON value over several lines, two blanks for each level. In strings only the quote, the
backslash and control characters are escaped.
-/

namespace Cadence.Json

/-- The hexadecimal digit of a number below sixteen, in lower case. -/
def hexDigit (n : Nat) : Char := Nat.digitChar n

/-- How a character is written inside a string. -/
def escape (c : Char) : List Char :=
  if c = '"' then ['\\', '"']
  else if c = '\\' then ['\\', '\\']
  else if c = '\n' then ['\\', 'n']
  else if c = '\r' then ['\\', 'r']
  else if c = '\t' then ['\\', 't']
  else if c = '\x08' then ['\\', 'b']
  else if c = '\x0c' then ['\\', 'f']
  else if c.toNat < 0x20 then
    ['\\', 'u', '0', '0', hexDigit (c.toNat / 16), hexDigit (c.toNat % 16)]
  else [c]

def quoted (s : String) : List Char :=
  '"' :: s.toList.flatMap escape ++ ['"']

/-- An integer in decimal. -/
def integer : Int → List Char
  | .ofNat n => Nat.toDigits 10 n
  | .negSucc n => '-' :: Nat.toDigits 10 (n + 1)

/-- A line break and the indentation of a level. -/
def newline (level : Nat) : List Char := '\n' :: List.replicate (2 * level) ' '

mutual

/-- The text of a value that stands at a level. -/
def chars (level : Nat) : Json → List Char
  | null => "null".toList
  | bool b => (if b then "true" else "false").toList
  | int n => integer n
  | float x => (Decimal.json x).toList
  | str s => quoted s
  | arr [] => ['[', ']']
  | arr (item :: rest) =>
    '[' :: newline (level + 1) ++ chars (level + 1) item ++ itemChars (level + 1) rest ++
      newline level ++ [']']
  | obj [] => ['\x7b', '\x7d']
  | obj ((name, value) :: rest) =>
    '\x7b' :: newline (level + 1) ++ quoted name ++ [':', ' '] ++ chars (level + 1) value ++
      fieldChars (level + 1) rest ++ newline level ++ ['\x7d']

/-- The items after the first. -/
def itemChars (level : Nat) : List Json → List Char
  | [] => []
  | item :: rest => ',' :: newline level ++ chars level item ++ itemChars level rest

/-- The fields after the first. -/
def fieldChars (level : Nat) : List (String × Json) → List Char
  | [] => []
  | (name, value) :: rest =>
    ',' :: newline level ++ quoted name ++ [':', ' '] ++ chars level value ++ fieldChars level rest

end

/-- The text of a document. -/
def text (value : Json) : String := String.ofList (chars 0 value)

end Cadence.Json
