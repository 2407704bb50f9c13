import Cadence.Text.Hidden
import Cadence.Url.Percent
import Cadence.Url.Punycode

/-!
# Hosts

The host of a URL is a domain, an address of version 4 or 6, or, under schemes that are not
special, a name that is left as it is.
-/

namespace Cadence

/-- Why a text is no URL. -/
inductive UrlFault where
  | noBase
  | emptyHost
  | domain
  | hostCharacter
  | address4
  | address6
  | port
  deriving Repr, DecidableEq

/-- What is said about a text that is no URL. -/
def UrlFault.message : UrlFault → String
  | noBase => "relative URL without a base"
  | emptyHost => "empty host"
  | domain => "invalid international domain name"
  | hostCharacter => "invalid domain character"
  | address4 => "invalid IPv4 address"
  | address6 => "invalid IPv6 address"
  | port => "invalid port number"

namespace Url

inductive Host where
  | domain (name : String)
  | address4 (value : Nat)
  /-- Eight pieces of sixteen bits. -/
  | address6 (pieces : List Nat)
  /-- A name under a scheme that is not special. -/
  | named (name : List Char)
  deriving Repr, DecidableEq

/-- The number that a part of an address of version 4 writes, in base sixteen behind `0x`, in base
eight behind another zero. -/
def addressPart? (s : List Char) : Option Nat :=
  let (base, digits) := match s with
    | '0' :: c :: rest => if c = 'x' ∨ c = 'X' then (16, rest) else (8, c :: rest)
    | s => (10, s)
  if s.isEmpty then none
  else do
    let ds ← digits.mapM fun c => (hexValue? c).filter (· < base)
    some (ds.foldl (fun n d => base * n + d) 0)

/-- The labels of a domain; a point at its end counts for nothing. -/
def labels (s : List Char) : List (List Char) :=
  let parts := s.splitOn '.'
  if parts.getLast? = some [] ∧ 1 < parts.length then parts.dropLast else parts

/-- Whether the last label of a domain is a number, so that the whole has to be an address. -/
def endsInNumber (s : List Char) : Bool :=
  match (labels s).getLast? with
  | none | some [] => false
  | some label => label.all Char.isDigit || (addressPart? label).isSome

/-- Reads an address of version 4: up to four numbers, of which the last fills the rest. -/
def address4? (s : List Char) : Option Nat := do
  let parts ← (labels s).mapM addressPart?
  let last ← parts.getLast?
  let rest := parts.dropLast
  if 4 < parts.length ∨ rest.any (255 < ·) ∨ Nat.pow 256 (5 - parts.length) ≤ last then none
  else
    let front := rest.zipIdx.foldl (fun n (part, i) => n + part * Nat.pow 256 (3 - i)) 0
    some (front + last)

/-- A decimal number below 256 without a zero in front of others. -/
def byteText? (s : List Char) : Option Nat := do
  if s.isEmpty ∨ 3 < s.length ∨ !s.all Char.isDigit ∨ (1 < s.length ∧ s.head? = some '0') then none
  else
    let n := s.foldl (fun n c => 10 * n + (c.toNat - 0x30)) 0
    if n < 256 then some n else none

/-- The pieces that a part of an address of version 6 writes. Where it may, the last stands for two
pieces that are written like an address of version 4. -/
def pieces? (mayEndDotted : Bool) : List (List Char) → Option (List Nat)
  | [] => some []
  | group :: rest =>
    if rest.isEmpty && mayEndDotted && group.contains '.' then do
      match ← (group.splitOn '.').mapM byteText? with
      | [a, b, c, d] => some [256 * a + b, 256 * c + d]
      | _ => none
    else do
      if group.isEmpty ∨ 4 < group.length then none
      else
        let ds ← group.mapM hexValue?
        let others ← pieces? mayEndDotted rest
        some (ds.foldl (fun n d => 16 * n + d) 0 :: others)

/-- Cuts a text at the first pair of colons. -/
def cutAtPair : List Char → List Char × Option (List Char)
  | ':' :: ':' :: rest => ([], some rest)
  | c :: rest => let (front, back) := cutAtPair rest; (c :: front, back)
  | [] => ([], none)

/-- The groups between colons; there are none in an empty text. -/
def groups (s : List Char) : List (List Char) := if s.isEmpty then [] else s.splitOn ':'

/-- Reads an address of version 6. A pair of colons stands for one or more pieces that are zero. -/
def address6? (s : List Char) : Option (List Nat) := do
  match cutAtPair s with
  | (whole, none) =>
    let pieces ← pieces? true (groups whole)
    if pieces.length = 8 then some pieces else none
  | (front, some back) =>
    let before ← pieces? false (groups front)
    let after ← pieces? true (groups back)
    let zeros := 8 - (before.length + after.length)
    if zeros = 0 then none else some (before ++ List.replicate zeros 0 ++ after)

/-- A character that does not count in a domain: the soft hyphen, joiners of width zero and
selectors of a variant. -/
def isIgnored (c : Char) : Bool :=
  let n := c.toNat
  n == 0xad || n == 0x200b || n == 0x2060 || n == 0xfeff || (0xfe00 ≤ n && n ≤ 0xfe0f)

/-- A character in the form in which domains are compared: the forms of full width become those of
ASCII, ideographic full stops become points, and letters lose their case. -/
def domainChar (c : Char) : Char :=
  let n := c.toNat
  let c := if 0xff01 ≤ n ∧ n ≤ 0xff5e then Char.ofNat (n - 0xfee0)
    else if n = 0x3002 ∨ n = 0xff61 then '.'
    else if (0xc0 ≤ n ∧ n ≤ 0xde ∧ n ≠ 0xd7) ∨ (0x391 ≤ n ∧ n ≤ 0x3a9) ∨ (0x410 ≤ n ∧ n ≤ 0x42f)
    then Char.ofNat (n + 0x20)
    else c
  c.toLower

/-- A mark that changes the character before it. -/
def isMark (c : Char) : Bool := 0x300 ≤ c.toNat && c.toNat < 0x370

/-- A character that no domain holds. -/
def isForbidden (c : Char) : Bool :=
  c.toNat ≤ 0x20 || c.toNat == 0x7f || "%#/:<>?@[\\]^|".contains c ||
    (0x7f < c.toNat && ((Text.isHidden c && !isMark c) || c.toNat == 0xfffd))

/-- A label in ASCII. One that is written in letters and digits already has to stand for a label
that needs it, in the form in which domains are compared. -/
def labelText? (label : List Char) : Option (List Char) :=
  let mark := "xn--".toList
  if label.head?.any isMark then none
  else if mark.isPrefixOf label then
    match Punycode.decode? (label.drop mark.length) with
    | none => none
    | some plain =>
      let settled (c : Char) : Bool := domainChar c == c && !isIgnored c && !isForbidden c
      if plain.all settled && plain.any (0x80 ≤ ·.toNat) && !plain.head?.any isMark then some label
      else none
  else if label.all fun c => c.toNat < 0x80 then some label
  else some (mark ++ Punycode.encode label)

/-- A domain in ASCII. -/
def domain? (s : List Char) : Option (List Char) := do
  let text ← decode? s
  let cs := (text.toList.filter (!isIgnored ·)).map domainChar
  if cs.any isForbidden then none
  else
    let labels ← (cs.splitOn '.').mapM labelText?
    some (['.'].intercalate labels)

/-- Reads a host between brackets. -/
def bracketHost (s : List Char) : Except UrlFault Host :=
  if s.getLast? = some ']' then
    match address6? s.dropLast with
    | some pieces => .ok (.address6 pieces)
    | none => .error .address6
  else .error .address6

/-- A character that no host holds. -/
def isForbiddenInHost (c : Char) : Bool :=
  "\x00\t\n\r #/:<>?@[\\]^|".contains c

/-- Reads a host. -/
def Host.parse (special : Bool) (s : List Char) : Except UrlFault Host :=
  match s with
  | '[' :: rest => bracketHost rest
  | s =>
    if special then
      match domain? s with
      | none => .error .domain
      | some name =>
        if name.isEmpty then .error .emptyHost
        else if endsInNumber name then
          match address4? name with
          | some value => .ok (.address4 value)
          | none => .error .address4
        else .ok (.domain (String.ofList name))
    else if s.any isForbiddenInHost then .error .hostCharacter
    else .ok (.named (encode .control s))

/-- An address of version 4: four numbers with points between them. -/
def address4Text (value : Nat) : List Char :=
  ['.'].intercalate ((List.range 4).map fun i =>
    Nat.toDigits 10 (value / Nat.pow 256 (3 - i) % 256))

/-- The number of zeros at the front. -/
def zeroRun (pieces : List Nat) : Nat := (pieces.takeWhile (· == 0)).length

/-- Where the first of the longest runs of two or more zeros begins, and how long it is. -/
def longestRun (pieces : List Nat) : Nat × Nat :=
  (List.range pieces.length).foldl (fun (start, length) i =>
    let run := zeroRun (pieces.drop i)
    if length < run && 1 < run then (i, run) else (start, length)) (0, 0)

/-- An address of version 6: its pieces with colons between them, the longest run of zeros left
out. -/
def address6Text (pieces : List Nat) : List Char :=
  let write (pieces : List Nat) : List Char := [':'].intercalate (pieces.map (Nat.toDigits 16))
  match longestRun pieces with
  | (_, 0) => write pieces
  | (start, length) =>
    write (pieces.take start) ++ "::".toList ++ write (pieces.drop (start + length))

/-- How a host is written. -/
def Host.chars : Host → List Char
  | domain name => name.toList
  | address4 value => address4Text value
  | address6 pieces => '[' :: address6Text pieces ++ [']']
  | named name => name

end Url

end Cadence
