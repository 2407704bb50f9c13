/-!
# Percent-encoding

A character that a part of a URL cannot hold is written as the bytes of its UTF-8 form, each as a
percent sign and two digits. Which characters these are depends on the part; characters beyond ASCII
are always written this way.
-/

namespace Cadence.Url

/-- A class of characters. -/
abbrev CharSet : Type := Char → Bool

namespace CharSet

/-- Controls and everything beyond ASCII. -/
def control : CharSet := fun c => c.toNat < 0x20 || 0x7f ≤ c.toNat

/-- A class with further characters. -/
def extend (set : CharSet) (more : String) : CharSet := fun c => set c || more.contains c

def fragment : CharSet := control.extend " \"<>`"

def query : CharSet := control.extend " \"#<>"

/-- In URLs with a special scheme, queries do not hold the apostrophe. -/
def specialQuery : CharSet := query.extend "'"

def path : CharSet := fragment.extend "#?^\x7b\x7d"

def userinfo : CharSet := path.extend "/:;=@[\\]|"

/-- One segment of a path, as it is added to a URL: neither the separators nor the percent sign
stand for themselves. -/
def segment : CharSet := path.extend "/%"

@[inherit_doc segment]
def specialSegment : CharSet := segment.extend "\\"

end CharSet

/-- The digit of a number below sixteen, in upper case. -/
def hexDigit (n : Nat) : Char := if n < 10 then Char.ofNat (0x30 + n) else Char.ofNat (0x37 + n)

/-- A byte as a percent sign and two digits. -/
def encodeByte (b : UInt8) : List Char := ['%', hexDigit (b.toNat / 16), hexDigit (b.toNat % 16)]

/-- A character in a part of a URL that cannot hold the characters of a class. -/
def encodeChar (set : CharSet) (c : Char) : List Char :=
  if set c then (String.utf8EncodeChar c).flatMap encodeByte else [c]

/-- A text in a part of a URL. -/
def encode (set : CharSet) (s : List Char) : List Char := s.flatMap (encodeChar set)

/-- The value of a hexadecimal digit. -/
def hexValue? (c : Char) : Option Nat :=
  if c.isDigit then some (c.toNat - 0x30)
  else if 'a' ≤ c ∧ c ≤ 'f' then some (c.toNat - 0x57)
  else if 'A' ≤ c ∧ c ≤ 'F' then some (c.toNat - 0x37)
  else none

/-- The bytes that a text stands for. A percent sign without two digits stands for itself. -/
def decodeBytes : List Char → List UInt8
  | [] => []
  | c :: rest =>
    match c, rest with
    | '%', a :: b :: behind =>
      match hexValue? a, hexValue? b with
      | some high, some low => UInt8.ofNat (16 * high + low) :: decodeBytes behind
      | _, _ => String.utf8EncodeChar '%' ++ decodeBytes (a :: b :: behind)
    | c, rest => String.utf8EncodeChar c ++ decodeBytes rest

/-- An encoded byte stands for that byte. -/
theorem decodeBytes_encodeByte (b : UInt8) (rest : List Char) :
    decodeBytes (encodeByte b ++ rest) = b :: decodeBytes rest := by
  have digit : ∀ n ∈ List.range 16, hexValue? (hexDigit n) = some n := by decide
  have hb := b.toNat_lt
  have high := digit (b.toNat / 16) (List.mem_range.2 (by omega))
  have low := digit (b.toNat % 16) (List.mem_range.2 (by omega))
  simp only [encodeByte, List.cons_append, List.nil_append, decodeBytes, high, low]
  have value : 16 * (b.toNat / 16) + b.toNat % 16 = b.toNat := by omega
  rw [value, UInt8.ofNat_toNat]

/-- The text that a text stands for, if its bytes are the UTF-8 form of one. -/
def decode? (s : List Char) : Option String :=
  String.fromUTF8? ⟨(decodeBytes s).toArray⟩

end Cadence.Url
