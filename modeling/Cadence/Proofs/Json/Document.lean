import Cadence.Proofs.Json.Number
import Cadence.Proofs.Json.Quoted

/-!
# JSON documents read back

A document is read back from its text whole and in order: every text, switch and integer of 64 bits,
and every float that is finite. Only what is no finite number is lost, and nothing stands in its
place.
-/

namespace Cadence.Json

mutual

/-- What the text of a value is read back as. -/
def readBack : Json → Json
  | .float x => if x.isFinite then .float x else .null
  | .arr items => .arr (readBackItems items)
  | .obj fields => .obj (readBackFields fields)
  | value => value

def readBackItems : List Json → List Json
  | [] => []
  | item :: rest => item.readBack :: readBackItems rest

def readBackFields : List (String × Json) → List (String × Json)
  | [] => []
  | (name, value) :: rest => (name, value.readBack) :: readBackFields rest

end

/-- A value whose integers fit 64 bits and that is nested no deeper than can be read. -/
inductive Readable : Nat → Json → Prop
  | null {depth} : Readable depth .null
  | bool {depth} (b : Bool) : Readable depth (.bool b)
  | int {depth n} (low : Int64.minValue.toInt ≤ n) (high : n < UInt64.size) :
      Readable depth (.int n)
  | float {depth} (x : Float) : Readable depth (.float x)
  | str {depth} (s : String) : Readable depth (.str s)
  | arr {depth items} (each : ∀ item ∈ items, Readable depth item) :
      Readable (depth + 1) (.arr items)
  | obj {depth fields} (each : ∀ field ∈ fields, Readable depth field.2) :
      Readable (depth + 1) (.obj fields)

section Space

variable {rule : NumberRule} {depth : Nat} {s s' : List Char}

theorem skipSpace_newline (level : Nat) (s : List Char) :
    skipSpace (newline level ++ s) = skipSpace s := by
  refine List.dropWhile_append_of_pos fun c member => ?_
  rcases List.mem_cons.mp member with rfl | member
  · rfl
  · rw [List.eq_of_mem_replicate member]
    rfl

theorem skipSpace_cons {c : Char} (plain : isSpace c = false) (s : List Char) :
    skipSpace (c :: s) = c :: s :=
  List.dropWhile_cons_of_neg (by simp [plain])

theorem value_congr (h : skipSpace s = skipSpace s') (fuel : Nat) :
    value rule fuel depth s = value rule fuel depth s' := by
  cases fuel with
  | zero => rw [value, value]
  | succ fuel => rw [value, value, h]

theorem items_congr (h : skipSpace s = skipSpace s') (fuel : Nat) :
    items rule fuel depth s = items rule fuel depth s' := by
  cases fuel with
  | zero => rw [items, items]
  | succ fuel => rw [items, items, value_congr h]

theorem fields_congr (h : skipSpace s = skipSpace s') (fuel : Nat) :
    fields rule fuel depth s = fields rule fuel depth s' := by
  cases fuel with
  | zero => rw [fields, fields]
  | succ fuel => rw [fields, fields, h]

end Space

section Number

variable {rest : List Char}

/-- A number text begins with a digit or a minus, so not with a character of any other kind. -/
theorem NumberText.Proper.exists_cons {t : NumberText} (proper : t.Proper) :
    ∃ c s, t.chars = c :: s ∧ ∀ other : Char, other.isDigit = false → other ≠ '-' → c ≠ other := by
  obtain ⟨c, s, whole⟩ := List.exists_cons_of_ne_nil proper.nonempty
  have digit : c.isDigit := proper.digits c (by simp [whole])
  unfold NumberText.chars
  rw [whole]
  split_ifs
  · exact ⟨'-', _, rfl, fun other _ minus => minus.symm⟩
  · refine ⟨c, _, rfl, fun other kind _ => ?_⟩
    rintro rfl
    exact absurd (digit.symm.trans kind) (by decide)

theorem isSpace_eq_false {c : Char}
    (apart : ∀ other : Char, other.isDigit = false → other ≠ '-' → c ≠ other) :
    isSpace c = false := by
  simp only [isSpace, Bool.or_eq_false_iff, beq_eq_false_iff_ne]
  exact ⟨⟨⟨apart _ rfl (by decide), apart _ rfl (by decide)⟩, apart _ rfl (by decide)⟩,
    apart _ rfl (by decide)⟩

theorem value_chars {t : NumberText} (proper : t.Proper) (ends : Ends rest) (rule : NumberRule)
    (fuel depth : Nat) :
    value rule (fuel + 1) depth (t.chars ++ rest) = (rule t).map fun v => (v, rest) := by
  obtain ⟨c, s, first, apart⟩ := proper.exists_cons
  have text : skipSpace (t.chars ++ rest) = t.chars ++ rest := by
    rw [first]
    exact skipSpace_cons (isSpace_eq_false apart) _
  have head : (t.chars ++ rest).head? = some c := by rw [first]; rfl
  have read := NumberText.numberText?_append proper ends
  unfold value
  rw [text]
  split
  next same => rw [same] at head; cases head
  next same => rw [same] at head; cases head; exact absurd rfl (apart '"' rfl (by decide))
  next same => rw [same] at head; cases head; exact absurd rfl (apart '[' rfl (by decide))
  next same => rw [same] at head; cases head; exact absurd rfl (apart '\x7b' rfl (by decide))
  next same => rw [same] at head; cases head; exact absurd rfl (apart 't' rfl (by decide))
  next same => rw [same] at head; cases head; exact absurd rfl (apart 'f' rfl (by decide))
  next same => rw [same] at head; cases head; exact absurd rfl (apart 'n' rfl (by decide))
  next =>
    rw [read]
    rfl

end Number

section Tree

/-- The text of a value begins neither with a blank nor with a closing bracket. -/
theorem exists_chars_eq_cons (level : Nat) (v : Json) :
    ∃ c s, chars level v = c :: s ∧ isSpace c = false ∧ c ≠ ']' := by
  have number {t : NumberText} (proper : t.Proper) :
      ∃ c s, t.chars = c :: s ∧ isSpace c = false ∧ c ≠ ']' := by
    obtain ⟨c, s, first, apart⟩ := proper.exists_cons
    exact ⟨c, s, first, isSpace_eq_false apart, apart ']' rfl (by decide)⟩
  cases v with
  | null => exact ⟨'n', _, rfl, rfl, by decide⟩
  | bool b =>
    cases b
    · exact ⟨'f', _, rfl, rfl, by decide⟩
    · exact ⟨'t', _, rfl, rfl, by decide⟩
  | int n =>
    rw [chars, integer_eq]
    exact number (NumberText.proper_ofInt n)
  | float x =>
    rw [chars]
    by_cases finite : x.isFinite
    · obtain ⟨t, proper, text, -⟩ := exists_json_eq_chars finite
      rw [text]
      exact number proper
    · rw [Decimal.json, if_neg finite]
      exact ⟨'n', _, rfl, rfl, by decide⟩
  | str s => exact ⟨'"', _, by rw [chars, quoted]; rfl, rfl, by decide⟩
  | arr items =>
    cases items with
    | nil => exact ⟨'[', _, by rw [chars], rfl, by decide⟩
    | cons item items => exact ⟨'[', _, by rw [chars]; rfl, rfl, by decide⟩
  | obj fields =>
    cases fields with
    | nil => exact ⟨'\x7b', _, by rw [chars], rfl, by decide⟩
    | cons field fields =>
      obtain ⟨name, value⟩ := field
      exact ⟨'\x7b', _, by rw [chars]; rfl, rfl, by decide⟩

theorem skipSpace_chars (level : Nat) (v : Json) (rest : List Char) :
    skipSpace (chars level v ++ rest) = chars level v ++ rest := by
  obtain ⟨c, s, first, plain, -⟩ := exists_chars_eq_cons level v
  rw [first]
  exact skipSpace_cons plain _

/-- A value that is read back from its text, whatever ends it. -/
def ReadsBack (depth : Nat) (v : Json) : Prop :=
  ∀ level fuel rest, Ends rest → (chars level v).length ≤ fuel →
    value exactNumber fuel depth (chars level v ++ rest) = some (v.readBack, rest)

theorem ends_newline (level : Nat) (rest : List Char) : Ends (newline level ++ rest) := by
  rintro c ⟨⟩
  exact Or.inr rfl

theorem ends_comma (rest : List Char) : Ends (',' :: rest) := by
  rintro c ⟨⟩
  exact Or.inl rfl

variable {depth : Nat}

/-- The items of an array are read back up to its closing bracket. -/
theorem items_itemChars {item : Json} {rest : List Json} (first : ReadsBack depth item)
    (others : ∀ item ∈ rest, ReadsBack depth item) {level fuel : Nat} (outer : Nat)
    (tail : List Char)
    (enough : (chars level item).length + (itemChars level rest).length < fuel) :
    items exactNumber fuel depth
      (chars level item ++ (itemChars level rest ++ (newline outer ++ ']' :: tail))) =
        some (readBackItems (item :: rest), tail) := by
  induction rest generalizing item fuel with
  | nil =>
    obtain ⟨fuel, rfl⟩ : ∃ n, fuel = n + 1 := ⟨fuel - 1, by omega⟩
    have read := first level fuel (newline outer ++ ']' :: tail) (ends_newline outer _)
      (by rw [itemChars] at enough; simpa using Nat.le_of_lt_succ enough)
    have close : skipSpace (newline outer ++ ']' :: tail) = ']' :: tail := by
      rw [skipSpace_newline, skipSpace_cons rfl]
    rw [items, itemChars, List.nil_append, read]
    simp only [close, readBackItems]
  | cons next rest ih =>
    obtain ⟨fuel, rfl⟩ : ∃ n, fuel = n + 1 := ⟨fuel - 1, by omega⟩
    obtain ⟨second, others⟩ := List.forall_mem_cons.mp others
    rw [itemChars] at enough ⊢
    simp only [List.cons_append, List.append_assoc, List.length_cons, List.length_append] at enough ⊢
    have read := first level fuel
      (',' :: (newline level ++ (chars level next ++
        (itemChars level rest ++ (newline outer ++ ']' :: tail))))) (ends_comma _) (by omega)
    have less : (chars level next).length + (itemChars level rest).length < fuel := by omega
    have behind := ih second others less
    have comma (s : List Char) : skipSpace (',' :: s) = ',' :: s := skipSpace_cons rfl s
    rw [items, read]
    simp only [comma]
    rw [items_congr (skipSpace_newline level _), behind]
    rfl

theorem quoted_append (s : String) (rest : List Char) :
    quoted s ++ rest = '"' :: (s.toList.flatMap escape ++ '"' :: rest) := by
  rw [quoted, List.append_assoc, List.cons_append]
  rfl

/-- The name of a field and the colon are read first, whatever stands behind them. -/
theorem fields_quoted (name : String) (fuel : Nat) (text : List Char) :
    fields exactNumber (fuel + 1) depth (quoted name ++ (':' :: ' ' :: text)) =
      (value exactNumber fuel depth text).bind fun (v, rest) =>
        match skipSpace rest with
        | '\x7d' :: rest => some ([(name, v)], rest)
        | ',' :: rest =>
          (fields exactNumber fuel depth rest).map fun (fs, rest) => ((name, v) :: fs, rest)
        | _ => none := by
  have front : skipSpace (quoted name ++ (':' :: ' ' :: text)) =
      '"' :: (name.toList.flatMap escape ++ '"' :: ':' :: ' ' :: text) := by
    rw [quoted_append, skipSpace_cons rfl]
  have colon : skipSpace (':' :: ' ' :: text) = ':' :: ' ' :: text := skipSpace_cons rfl _
  have blank : value exactNumber fuel depth (' ' :: text) = value exactNumber fuel depth text :=
    value_congr (show skipSpace (' ' :: text) = skipSpace text from rfl) fuel
  rw [fields, front]
  simp only [stringBody_flatMap_escape, colon, blank, String.ofList_toList]
  cases value exactNumber fuel depth text <;> rfl

/-- The fields of an object are read back up to its closing brace. -/
theorem fields_fieldChars (name : String) {v : Json} {rest : List (String × Json)}
    (first : ReadsBack depth v) (others : ∀ field ∈ rest, ReadsBack depth field.2)
    {level fuel : Nat} (outer : Nat) (tail : List Char)
    (enough : (chars level v).length + (fieldChars level rest).length < fuel) :
    fields exactNumber fuel depth
      (quoted name ++ (':' :: ' ' :: (chars level v ++
        (fieldChars level rest ++ (newline outer ++ '\x7d' :: tail))))) =
      some (readBackFields ((name, v) :: rest), tail) := by
  induction rest generalizing name v fuel with
  | nil =>
    obtain ⟨fuel, rfl⟩ : ∃ n, fuel = n + 1 := ⟨fuel - 1, by omega⟩
    have read := first level fuel (newline outer ++ '\x7d' :: tail) (ends_newline outer _)
      (by rw [fieldChars] at enough; simpa using Nat.le_of_lt_succ enough)
    have close : skipSpace (newline outer ++ '\x7d' :: tail) = '\x7d' :: tail := by
      rw [skipSpace_newline, skipSpace_cons rfl]
    rw [fields_quoted, fieldChars, List.nil_append, read]
    simp only [Option.bind_some, close, readBackFields]
  | cons next rest ih =>
    obtain ⟨other, next⟩ := next
    obtain ⟨fuel, rfl⟩ : ∃ n, fuel = n + 1 := ⟨fuel - 1, by omega⟩
    obtain ⟨second, others⟩ := List.forall_mem_cons.mp others
    rw [fieldChars] at enough ⊢
    simp only [List.cons_append, List.append_assoc, List.nil_append, List.length_cons,
      List.length_append] at enough ⊢
    have less : (chars level next).length + (fieldChars level rest).length < fuel := by omega
    have read := first level fuel
      (',' :: (newline level ++ (quoted other ++ (':' :: ' ' :: (chars level next ++
        (fieldChars level rest ++ (newline outer ++ '\x7d' :: tail))))))) (ends_comma _) (by omega)
    have comma (s : List Char) : skipSpace (',' :: s) = ',' :: s := skipSpace_cons rfl s
    rw [fields_quoted, read]
    simp only [Option.bind_some, comma]
    rw [fields_congr (skipSpace_newline level _), ih other second others less]
    rfl

/-- What stands behind a bracket that is not closed at once are items. -/
theorem value_bracket {rule : NumberRule} {fuel : Nat} {c : Char} {s s' : List Char}
    (first : skipSpace s = c :: s') (filled : c ≠ ']') :
    value rule (fuel + 1) (depth + 1) ('[' :: s) =
      (items rule fuel depth (c :: s')).map fun (vs, rest) => (.arr vs, rest) := by
  have bracket : skipSpace ('[' :: s) = '[' :: s := skipSpace_cons rfl s
  rw [value, bracket]
  simp only [Nat.add_one_ne_zero, if_false, Nat.add_sub_cancel, first]
  split
  next same => exact absurd (List.cons.inj same).1 filled
  next => rfl

/-- What stands behind a brace that is not closed at once are fields. -/
theorem value_brace {rule : NumberRule} {fuel : Nat} {c : Char} {s s' : List Char}
    (first : skipSpace s = c :: s') (filled : c ≠ '\x7d') :
    value rule (fuel + 1) (depth + 1) ('\x7b' :: s) =
      (fields rule fuel depth (c :: s')).map fun (fs, rest) => (.obj fs, rest) := by
  have brace : skipSpace ('\x7b' :: s) = '\x7b' :: s := skipSpace_cons rfl s
  rw [value, brace]
  simp only [Nat.add_one_ne_zero, if_false, Nat.add_sub_cancel, first]
  split
  next same => exact absurd (List.cons.inj same).1 filled
  next => rfl

theorem exists_fuel {level fuel : Nat} {v : Json} (enough : (chars level v).length ≤ fuel) :
    ∃ n, fuel = n + 1 := by
  obtain ⟨c, s, first, -⟩ := exists_chars_eq_cons level v
  rw [first, List.length_cons] at enough
  exact ⟨fuel - 1, by omega⟩

theorem readsBack_int {n : Int} (low : Int64.minValue.toInt ≤ n) (high : n < UInt64.size) :
    ReadsBack depth (.int n) := by
  intro level fuel rest ends enough
  obtain ⟨fuel, rfl⟩ := exists_fuel enough
  rw [chars, integer_eq, value_chars (NumberText.proper_ofInt n) ends, exactNumber_ofInt low high]
  rfl

theorem readsBack_float (x : Float) : ReadsBack depth (.float x) := by
  intro level fuel rest ends enough
  obtain ⟨fuel, rfl⟩ := exists_fuel enough
  rw [chars]
  by_cases finite : x.isFinite
  · obtain ⟨t, proper, text, worth⟩ := exists_json_eq_chars finite
    rw [text, value_chars proper ends, worth, readBack, if_pos finite]
    rfl
  · rw [Decimal.json, if_neg finite, readBack, if_neg finite]
    rfl

theorem readsBack_str (s : String) : ReadsBack depth (.str s) := by
  intro level fuel rest ends enough
  obtain ⟨fuel, rfl⟩ := exists_fuel enough
  have front : skipSpace (quoted s ++ rest) = '"' :: (s.toList.flatMap escape ++ '"' :: rest) := by
    rw [quoted_append, skipSpace_cons rfl]
  rw [chars, value, front]
  simp only [stringBody_flatMap_escape, Option.map_some, String.ofList_toList, readBack]

theorem readsBack_arr {items : List Json} (each : ∀ item ∈ items, ReadsBack depth item) :
    ReadsBack (depth + 1) (.arr items) := by
  intro level fuel rest ends enough
  obtain ⟨fuel, rfl⟩ := exists_fuel enough
  cases items with
  | nil =>
    rw [chars]
    rfl
  | cons item items =>
    obtain ⟨first, others⟩ := List.forall_mem_cons.mp each
    rw [chars] at enough ⊢
    simp only [List.cons_append, List.append_assoc, List.nil_append, List.length_cons,
      List.length_append] at enough ⊢
    have less : (chars (level + 1) item).length + (itemChars (level + 1) items).length < fuel := by
      simp only [newline, List.length_cons] at enough
      omega
    obtain ⟨c, s, head, -, filled⟩ := exists_chars_eq_cons (level + 1) item
    have begins := (skipSpace_newline (level + 1) _).trans
      (skipSpace_chars (level + 1) item
        (itemChars (level + 1) items ++ (newline level ++ ']' :: rest)))
    have read := items_itemChars first others level rest less
    rw [head, List.cons_append] at begins read ⊢
    rw [value_bracket begins filled, read]
    rfl

theorem readsBack_obj {fields : List (String × Json)}
    (each : ∀ field ∈ fields, ReadsBack depth field.2) : ReadsBack (depth + 1) (.obj fields) := by
  intro level fuel rest ends enough
  obtain ⟨fuel, rfl⟩ := exists_fuel enough
  cases fields with
  | nil =>
    rw [chars]
    rfl
  | cons field fields =>
    obtain ⟨name, v⟩ := field
    obtain ⟨first, others⟩ := List.forall_mem_cons.mp each
    rw [chars] at enough ⊢
    simp only [List.cons_append, List.append_assoc, List.nil_append, List.length_cons,
      List.length_append] at enough ⊢
    have less : (chars (level + 1) v).length + (fieldChars (level + 1) fields).length < fuel := by
      simp only [newline, List.length_cons] at enough
      omega
    have begins (text : List Char) : skipSpace (newline (level + 1) ++ (quoted name ++ text)) =
        '"' :: (name.toList.flatMap escape ++ '"' :: text) := by
      rw [skipSpace_newline, quoted_append, skipSpace_cons rfl]
    have read := fields_fieldChars name first others level rest less
    rw [quoted_append] at read
    rw [value_brace (begins _) (by decide), read]
    rfl

/-- Whatever can be read is read back from its text. -/
theorem Readable.readsBack {v : Json} (h : Readable depth v) : ReadsBack depth v := by
  induction h with
  | null =>
    intro level fuel rest ends enough
    obtain ⟨fuel, rfl⟩ := exists_fuel enough
    rfl
  | bool b =>
    intro level fuel rest ends enough
    obtain ⟨fuel, rfl⟩ := exists_fuel enough
    cases b <;> rfl
  | int low high => exact readsBack_int low high
  | float x => exact readsBack_float x
  | str s => exact readsBack_str s
  | arr _ ih => exact readsBack_arr ih
  | obj _ ih => exact readsBack_obj ih

/-- A document is read back from its text. -/
theorem parse?_text {v : Json} (h : Readable 127 v) : parse? exactNumber v.text = some v.readBack := by
  have nothing : Ends [] := fun c first => nomatch first
  have read := h.readsBack 0 (2 * (chars 0 v).length + 2) [] nothing (by omega)
  rw [List.append_nil] at read
  simp only [parse?, text, String.toList_ofList, read]
  rfl

end Tree

end Cadence.Json
