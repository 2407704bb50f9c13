import Cadence.Proofs.Text.Bytes
import Cadence.Url.Percent

/-!
# Percent-encoding is undone

Where the percent sign does not stand for itself, an encoded text stands for the text it was made
of, whatever other characters the class has. The characters of the class do not stand in it, but for
the percent sign and the digits behind it.
-/

namespace Cadence.Url

open String (utf8EncodeChar)

variable {set : CharSet}

theorem decodeBytes_flatMap_encodeByte (bytes : List UInt8) (rest : List Char) :
    decodeBytes (bytes.flatMap encodeByte ++ rest) = bytes ++ decodeBytes rest := by
  induction bytes with
  | nil => rfl
  | cons b bytes ih =>
    rw [List.flatMap_cons, List.append_assoc, decodeBytes_encodeByte, ih, List.cons_append]

/-- A character other than the percent sign stands for its own bytes. -/
theorem decodeBytes_cons {c : Char} (plain : c ≠ '%') (rest : List Char) :
    decodeBytes (c :: rest) = utf8EncodeChar c ++ decodeBytes rest := by
  rw [decodeBytes]
  intro _ _ _ percent
  exact absurd percent plain

theorem decodeBytes_encodeChar (percent : set '%' = true) (c : Char) (rest : List Char) :
    decodeBytes (encodeChar set c ++ rest) = utf8EncodeChar c ++ decodeBytes rest := by
  unfold encodeChar
  split
  · exact decodeBytes_flatMap_encodeByte _ rest
  · next stands =>
    refine decodeBytes_cons ?_ rest
    rintro rfl
    exact stands percent

theorem decodeBytes_encode (percent : set '%' = true) (s : List Char) :
    decodeBytes (encode set s) = s.flatMap utf8EncodeChar := by
  induction s with
  | nil => rfl
  | cons c s ih =>
    rw [encode, List.flatMap_cons, decodeBytes_encodeChar percent, ← encode, ih, List.flatMap_cons]

/-- The bytes of a text are read back as the text. -/
theorem fromUTF8?_flatMap (s : List Char) :
    String.fromUTF8? ⟨(s.flatMap utf8EncodeChar).toArray⟩ = some (String.ofList s) := by
  have same : (⟨(s.flatMap utf8EncodeChar).toArray⟩ : ByteArray) = s.utf8Encode := by
    apply ByteArray.ext
    simp [List.utf8Encode]
  rw [same, String.fromUTF8?, dif_pos ByteArray.isValidUTF8_utf8Encode]
  rfl

/-- An encoded text stands for the text it was made of. -/
theorem decode?_encode (percent : set '%' = true) (s : List Char) :
    decode? (encode set s) = some (String.ofList s) := by
  rw [decode?, decodeBytes_encode percent, fromUTF8?_flatMap]

/-- What stands in an encoded text: a percent sign, a digit, or a character of the text that is not
of the class. -/
theorem mem_encode {s : List Char} {c : Char} (h : c ∈ encode set s) :
    c = '%' ∨ (∃ n < 16, c = hexDigit n) ∨ c ∈ s ∧ set c = false := by
  obtain ⟨d, given, member⟩ := List.mem_flatMap.mp h
  unfold encodeChar at member
  split at member
  · obtain ⟨b, -, member⟩ := List.mem_flatMap.mp member
    have bound := b.toNat_lt
    simp only [encodeByte, List.mem_cons, List.not_mem_nil, or_false] at member
    rcases member with percent | high | low
    · exact Or.inl percent
    · exact Or.inr (Or.inl ⟨_, by omega, high⟩)
    · exact Or.inr (Or.inl ⟨_, by omega, low⟩)
  · next stands =>
    rw [List.mem_singleton] at member
    subst member
    exact Or.inr (Or.inr ⟨given, by simpa using stands⟩)

/-- The characters that separate the parts of a URL. -/
def separators : List Char := ['/', '\\', '?', '#']

/-- A separator stands in an encoded text only where it stood before. -/
theorem mem_of_mem_encode {s : List Char} {c : Char} (separates : c ∈ separators)
    (h : c ∈ encode set s) : c ∈ s ∧ set c = false := by
  rcases mem_encode h with rfl | ⟨n, small, rfl⟩ | stood
  · exact absurd separates (by decide)
  · have none : ∀ n ∈ List.range 16, hexDigit n ∉ separators := by decide
    exact absurd separates (none n (List.mem_range.mpr small))
  · exact stood

end Cadence.Url
