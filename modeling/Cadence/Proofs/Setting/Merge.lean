import Cadence.Setting.Path
import Mathlib.Data.List.Nodup

/-!
# Settings put together

What a tree holds under a name after a source has been put into it. A source that gives a name puts
its value there; only a table is put in entry by entry, so that an empty one changes nothing.
-/

namespace Cadence

theorem lookup_cons_ite {α : Type} (name : String) (entry : String × α)
    (rest : List (String × α)) :
    (entry :: rest).lookup name = if name = entry.1 then some entry.2 else rest.lookup name := by
  obtain ⟨other, value⟩ := entry
  rw [List.lookup_cons]
  by_cases same : name = other
  · simp [same]
  · rw [beq_false_of_ne same, if_neg same]

namespace Setting

theorem lookup_adjustEntry (name other : String) (change : Option Setting → Setting)
    (entries : List (String × Setting)) :
    (adjustEntry name change entries).lookup other =
      if other = name then some (change (entries.lookup name)) else entries.lookup other := by
  induction entries with
  | nil =>
    rw [adjustEntry, lookup_cons_ite]
    rfl
  | cons entry rest ih =>
    obtain ⟨first, value⟩ := entry
    unfold adjustEntry
    by_cases here : first = name
    · subst here
      rw [if_pos rfl, lookup_cons_ite, lookup_cons_ite, lookup_cons_ite, if_pos rfl]
      by_cases same : other = first
      · rw [if_pos same, if_pos same]
      · rw [if_neg same, if_neg same, if_neg same]
    · rw [if_neg here, lookup_cons_ite, ih, lookup_cons_ite, lookup_cons_ite,
        if_neg (Ne.symm here)]
      by_cases same : other = first
      · have differs : other ≠ name := fun h => here (same.symm.trans h)
        rw [if_pos same, if_neg differs, if_pos same]
      · rw [if_neg same, if_neg same]

/-- What stands under a name after a value has been put there. -/
def placed (value : Setting) (existing : Option Setting) : Setting :=
  match value with
  | table entries _ => assignAll (existing.getD (table [] none)) entries
  | value => value

@[simp] theorem placed_scalar (value : Scalar) (origin : Option String) (existing : Option Setting) :
    (scalar value origin).placed existing = scalar value origin := rfl

@[simp] theorem placed_list (items : List Setting) (origin : Option String)
    (existing : Option Setting) : (list items origin).placed existing = list items origin := rfl

/-- An empty table leaves what stands there. -/
theorem placed_empty (origin : Option String) (existing : Setting) :
    (table [] origin).placed (some existing) = existing := rfl

theorem assign_eq (name : String) (target value : Setting) :
    assign name target value = target.adjustName name value.placed := by
  cases value <;> rfl

/-- Whatever has an entry put into it is a table. -/
theorem exists_assign_eq_table (name : String) (target value : Setting) :
    ∃ entries origin, assign name target value = table entries origin := by
  rw [assign_eq]
  cases target <;> exact ⟨_, _, rfl⟩

theorem exists_assignAll_eq_table (fields : List (String × Setting))
    (entries : List (String × Setting)) (origin : Option String) :
    ∃ entries' origin', assignAll (table entries origin) fields = table entries' origin' := by
  induction fields generalizing entries origin with
  | nil => exact ⟨entries, origin, rfl⟩
  | cons field fields ih =>
    obtain ⟨entries', origin', same⟩ := exists_assign_eq_table field.1 (table entries origin) field.2
    rw [show assignAll (table entries origin) (field :: fields) =
      assignAll (assign field.1 (table entries origin) field.2) fields from rfl, same]
    exact ih entries' origin'

/-- A table with entries makes a table of what stands there. -/
theorem exists_placed_eq_table (field : String × Setting) (fields : List (String × Setting))
    (origin : Option String) (existing : Option Setting) :
    ∃ entries' origin', (table (field :: fields) origin).placed existing = table entries' origin' := by
  obtain ⟨entries, origin, same⟩ :=
    exists_assign_eq_table field.1 (existing.getD (table [] none)) field.2
  rw [placed, show assignAll (existing.getD (table [] none)) (field :: fields) =
    assignAll (assign field.1 (existing.getD (table [] none)) field.2) fields from rfl, same]
  exact exists_assignAll_eq_table fields entries origin

/-- The entries of a table after those of a source have been put into it. -/
def merge (entries source : List (String × Setting)) : List (String × Setting) :=
  source.foldl (fun entries (name, value) => adjustEntry name value.placed entries) entries

/-- A name that stands for a setting as a whole. -/
def PlainName (name : String) : Prop := Path.ofName name = [.name name]

instance (name : String) : Decidable (PlainName name) :=
  inferInstanceAs (Decidable (Path.ofName name = [.name name]))

/-- A source whose names are plain is put in name by name. -/
theorem putAll_table {source : List (String × Setting)} (entries : List (String × Setting))
    (origin : Option String) (plain : ∀ entry ∈ source, PlainName entry.1) :
    (table entries origin).putAll source = table (merge entries source) origin := by
  induction source generalizing entries with
  | nil => rfl
  | cons entry rest ih =>
    obtain ⟨here, others⟩ := List.forall_mem_cons.mp plain
    have first : put entry.2 (Path.ofName entry.1) (table entries origin) =
        table (adjustEntry entry.1 entry.2.placed entries) origin := by
      rw [here]
      exact assign_eq entry.1 _ entry.2
    rw [putAll, List.foldl_cons]
    dsimp only
    rw [first]
    exact ih (adjustEntry entry.1 entry.2.placed entries) others

/-- What stands under a name that the source does not give. -/
theorem lookup_merge_of_absent {source : List (String × Setting)} {name : String}
    (entries : List (String × Setting)) (absent : ∀ entry ∈ source, entry.1 ≠ name) :
    (merge entries source).lookup name = entries.lookup name := by
  induction source generalizing entries with
  | nil => rfl
  | cons entry rest ih =>
    obtain ⟨here, others⟩ := List.forall_mem_cons.mp absent
    rw [merge, List.foldl_cons, ← merge, ih _ others, lookup_adjustEntry, if_neg (Ne.symm here)]

/-- What stands under a name that the source gives once. -/
theorem lookup_merge_of_mem {source : List (String × Setting)} {name : String} {value : Setting}
    (entries : List (String × Setting)) (nodup : (source.map (·.1)).Nodup)
    (member : (name, value) ∈ source) :
    (merge entries source).lookup name = some (value.placed (entries.lookup name)) := by
  induction source generalizing entries with
  | nil => cases member
  | cons entry rest ih =>
    obtain ⟨fresh, nodup⟩ := List.nodup_cons.mp nodup
    rw [merge, List.foldl_cons, ← merge]
    rcases List.mem_cons.mp member with rfl | member
    · have absent : ∀ entry ∈ rest, entry.1 ≠ name := fun entry member same =>
        fresh (List.mem_map.mpr ⟨entry, member, same⟩)
      rw [lookup_merge_of_absent _ absent, lookup_adjustEntry, if_pos rfl]
    · have differs : name ≠ entry.1 := fun same =>
        fresh (List.mem_map.mpr ⟨(name, value), member, same⟩)
      rw [ih _ nodup member, lookup_adjustEntry, if_neg differs]

end Setting

end Cadence
