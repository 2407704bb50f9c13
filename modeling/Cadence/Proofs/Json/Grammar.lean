import Cadence.Proofs.Json.Number

/-!
# The grammar of JSON texts

What a JSON text is, said without a reader: a value with blanks around it. Every document is written
in this grammar, whatever characters its texts hold and whatever its numbers are; what is no finite
number is written as `null`.
-/

namespace Cadence.Json

namespace Grammar

/-- Blanks, as they may stand between the parts of a text. -/
def Space (s : List Char) : Prop := ∀ c ∈ s, c = ' ' ∨ c = '\t' ∨ c = '\n' ∨ c = '\r'

def IsHexDigit (c : Char) : Prop := ('0' ≤ c ∧ c ≤ '9') ∨ ('a' ≤ c ∧ c ≤ 'f') ∨ ('A' ≤ c ∧ c ≤ 'F')

/-- What stands for one character between quotes, or for one half of a surrogate pair. -/
inductive Character : List Char → Prop
  | plain {c : Char} (visible : 0x20 ≤ c.toNat) (quote : c ≠ '"') (backslash : c ≠ '\\') :
      Character [c]
  | letter {c : Char} (known : c ∈ ['"', '\\', '/', 'b', 'f', 'n', 'r', 't']) : Character ['\\', c]
  | unit {a b c d : Char} (digits : ∀ x ∈ [a, b, c, d], IsHexDigit x) :
      Character ['\\', 'u', a, b, c, d]

/-- A text between quotes. -/
def Quoted (s : List Char) : Prop :=
  ∃ parts : List (List Char), (∀ part ∈ parts, Character part) ∧
    s = '"' :: (parts.flatten ++ ['"'])

/-- One digit or more. -/
structure Digits (s : List Char) : Prop where
  nonempty : s ≠ []
  digits : ∀ c ∈ s, c.isDigit

/-- The digits in front of a point. Only zero itself begins with zero. -/
structure Whole (s : List Char) : Prop extends Digits s where
  first : s.head? = some '0' → s = ['0']

inductive Fraction : List Char → Prop
  | none : Fraction []
  | places {s : List Char} (digits : Digits s) : Fraction ('.' :: s)

inductive Exponent : List Char → Prop
  | none : Exponent []
  | power {mark : Char} {sign s : List Char} (letter : mark = 'e' ∨ mark = 'E')
      (signed : sign = [] ∨ sign = ['+'] ∨ sign = ['-']) (digits : Digits s) :
      Exponent (mark :: (sign ++ s))

inductive Number : List Char → Prop
  | parts {sign whole fraction exponent : List Char} (signed : sign = [] ∨ sign = ['-'])
      (front : Whole whole) (back : Fraction fraction) (power : Exponent exponent) :
      Number (sign ++ (whole ++ (fraction ++ exponent)))

mutual

inductive Value : List Char → Prop
  | null : Value "null".toList
  | true : Value "true".toList
  | false : Value "false".toList
  | number {s : List Char} (written : Number s) : Value s
  | text {s : List Char} (written : Quoted s) : Value s
  | noItems {space : List Char} (blank : Space space) : Value ('[' :: (space ++ [']']))
  | array {s : List Char} (written : Items s) : Value ('[' :: (s ++ [']']))
  | noFields {space : List Char} (blank : Space space) : Value ('\x7b' :: (space ++ ['\x7d']))
  | object {s : List Char} (written : Fields s) : Value ('\x7b' :: (s ++ ['\x7d']))

/-- A value with blanks around it. -/
inductive Padded : List Char → Prop
  | around {before v after : List Char} (front : Space before) (value : Value v)
      (back : Space after) : Padded (before ++ (v ++ after))

/-- Values with commas between them. -/
inductive Items : List Char → Prop
  | last {s : List Char} (item : Padded s) : Items s
  | more {s rest : List Char} (item : Padded s) (others : Items rest) : Items (s ++ ',' :: rest)

/-- Names and values with commas between them. -/
inductive Fields : List Char → Prop
  | last {before name gap s : List Char} (front : Space before) (named : Quoted name)
      (colon : Space gap) (value : Padded s) : Fields (before ++ (name ++ (gap ++ ':' :: s)))
  | more {before name gap s rest : List Char} (front : Space before) (named : Quoted name)
      (colon : Space gap) (value : Padded s) (others : Fields rest) :
      Fields (before ++ (name ++ (gap ++ ':' :: (s ++ ',' :: rest))))

end

section Leaves

theorem space_nil : Space [] := fun _ member => nomatch member

theorem space_blank : Space [' '] := by
  rintro c member
  exact Or.inl (List.mem_singleton.mp member)

theorem space_newline (level : Nat) : Space (newline level) := by
  intro c member
  rcases List.mem_cons.mp member with rfl | member
  · exact Or.inr (Or.inr (Or.inl rfl))
  · exact Or.inl (List.eq_of_mem_replicate member)

theorem isHexDigit_hexDigit {n : Nat} (h : n < 16) : IsHexDigit (hexDigit n) := by
  have all : ∀ n ∈ List.range 16, ('0' ≤ hexDigit n ∧ hexDigit n ≤ '9') ∨
      ('a' ≤ hexDigit n ∧ hexDigit n ≤ 'f') ∨ ('A' ≤ hexDigit n ∧ hexDigit n ≤ 'F') := by decide
  exact all n (List.mem_range.mpr h)

/-- Each character has a way to be written. -/
theorem character_escape (c : Char) : Character (escape c) := by
  unfold escape
  split_ifs with quote backslash feed carriage tab back form control
  iterate 7 exact .letter (by decide)
  · refine .unit ?_
    have zero : IsHexDigit '0' := Or.inl ⟨le_rfl, by decide⟩
    simp only [List.forall_mem_cons]
    exact ⟨zero, zero, isHexDigit_hexDigit (by omega), isHexDigit_hexDigit (by omega), by simp⟩
  · exact .plain (not_lt.mp control) quote backslash

theorem quoted_quoted (s : String) : Quoted (quoted s) := by
  refine ⟨s.toList.map escape, ?_, by rw [← List.flatMap_def]; rfl⟩
  rw [List.forall_mem_map]
  exact fun c _ => character_escape c

theorem digits_toDigits (n : Nat) : Digits (Nat.toDigits 10 n) where
  nonempty := Nat.toDigits_ne_nil
  digits := fun _ => Nat.isDigit_of_mem_toDigits (by decide) le_rfl

theorem fraction_fractionChars {s : List Char} (digits : ∀ c ∈ s, c.isDigit) :
    Fraction (NumberText.fractionChars s) := by
  cases s with
  | nil => exact .none
  | cons c s => exact .places ⟨List.cons_ne_nil c s, digits⟩

theorem exponent_exponentChars (e : Option Int) : Exponent (NumberText.exponentChars e) := by
  cases e with
  | none => exact .none
  | some e =>
    have written :
        Exponent ('e' :: ([if e < 0 then '-' else '+'] ++ Nat.toDigits 10 e.natAbs)) := by
      refine .power (Or.inl rfl) (Or.inr ?_) (digits_toDigits _)
      split
      · exact Or.inr rfl
      · exact Or.inl rfl
    exact written

/-- Parts that can be told from the way they are written make a number. -/
theorem number_chars {t : NumberText} (proper : t.Proper) : Number t.chars := by
  refine .parts ?_ ⟨⟨proper.nonempty, proper.digits⟩, fun zero => ?_⟩
    (fraction_fractionChars proper.fraction) (exponent_exponentChars t.exponent)
  · split
    · exact Or.inr rfl
    · exact Or.inl rfl
  · obtain ⟨rest, same⟩ := List.head?_eq_some_iff.mp zero
    have short := proper.first zero
    rw [same, List.length_cons] at short
    have alone : rest = [] := List.eq_nil_of_length_eq_zero (by omega)
    rw [same, alone]

theorem value_integer (n : Int) : Value (integer n) := by
  rw [integer_eq]
  exact .number (number_chars (NumberText.proper_ofInt n))

theorem value_json (x : Float) : Value (Decimal.json x).toList := by
  by_cases finite : x.isFinite
  · obtain ⟨t, proper, text, -⟩ := exists_json_eq_chars finite
    rw [text]
    exact .number (number_chars proper)
  · rw [Decimal.json, if_neg finite]
    exact .null

end Leaves

section Tree

/-- The items of an array, the first with what stands before it and the last with what stands behind
it. -/
theorem items_itemChars {level : Nat} {item : Json} {rest : List Json} {back : List Char}
    (first : Value (chars level item)) (others : ∀ item ∈ rest, Value (chars level item))
    (blank : Space back) :
    Items (newline level ++ (chars level item ++ (itemChars level rest ++ back))) := by
  induction rest generalizing item with
  | nil =>
    rw [itemChars]
    exact .last (.around (space_newline level) first blank)
  | cons next rest ih =>
    obtain ⟨second, others⟩ := List.forall_mem_cons.mp others
    have written := Items.more (.around (space_newline level) first space_nil) (ih second others)
    rw [itemChars]
    simpa only [List.append_nil, List.append_assoc, List.cons_append] using written

/-- The fields of an object, likewise. -/
theorem fields_fieldChars (name : String) {level : Nat} {v : Json}
    {rest : List (String × Json)} {back : List Char} (first : Value (chars level v))
    (others : ∀ field ∈ rest, Value (chars level field.2)) (blank : Space back) :
    Fields (newline level ++ (quoted name ++ (':' :: ' ' :: (chars level v ++
      (fieldChars level rest ++ back))))) := by
  induction rest generalizing name v with
  | nil =>
    rw [fieldChars]
    exact .last (space_newline level) (quoted_quoted name) space_nil
      (.around space_blank first blank)
  | cons next rest ih =>
    obtain ⟨other, next⟩ := next
    obtain ⟨second, others⟩ := List.forall_mem_cons.mp others
    have written := Fields.more (space_newline level) (quoted_quoted name) space_nil
      (.around space_blank first space_nil) (ih other second others)
    rw [fieldChars]
    simpa only [List.append_nil, List.nil_append, List.append_assoc, List.cons_append] using written

mutual

/-- A value is written in the grammar at every level. -/
theorem value_chars (level : Nat) : ∀ v : Json, Value (chars level v)
  | .null => by rw [chars]; exact .null
  | .bool true => by rw [chars]; exact .true
  | .bool false => by rw [chars]; exact .false
  | .int n => by rw [chars]; exact value_integer n
  | .float x => by rw [chars]; exact value_json x
  | .str s => by rw [chars]; exact .text (quoted_quoted s)
  | .arr [] => by rw [chars]; exact .noItems space_nil
  | .arr (item :: rest) => by
    have written := Value.array (items_itemChars (value_chars (level + 1) item)
      (value_chars_items (level + 1) rest) (space_newline level))
    rw [chars]
    simpa only [List.append_assoc, List.cons_append] using written
  | .obj [] => by rw [chars]; exact .noFields space_nil
  | .obj ((name, v) :: rest) => by
    have written := Value.object (fields_fieldChars name (value_chars (level + 1) v)
      (value_chars_fields (level + 1) rest) (space_newline level))
    rw [chars]
    simpa only [List.append_assoc, List.cons_append, List.nil_append] using written

theorem value_chars_items (level : Nat) :
    ∀ items : List Json, ∀ item ∈ items, Value (chars level item)
  | [] => by simp
  | item :: rest =>
    List.forall_mem_cons.mpr ⟨value_chars level item, value_chars_items level rest⟩

theorem value_chars_fields (level : Nat) :
    ∀ fields : List (String × Json), ∀ field ∈ fields, Value (chars level field.2)
  | [] => by simp
  | (_, v) :: rest =>
    List.forall_mem_cons.mpr ⟨value_chars level v, value_chars_fields level rest⟩

end

end Tree

end Grammar

/-- A JSON text. -/
def WellFormed (s : String) : Prop := Grammar.Padded s.toList

/-- The text of every document is a JSON text. -/
theorem wellFormed_text (v : Json) : WellFormed v.text := by
  have value := Grammar.value_chars 0 v
  have written := Grammar.Padded.around Grammar.space_nil value Grammar.space_nil
  rw [WellFormed, text, String.toList_ofList]
  simpa only [List.nil_append, List.append_nil] using written

end Cadence.Json
