import Cadence.Ledger
import Mathlib.Algebra.BigOperators.Group.List.Basic
import Mathlib.Algebra.Ring.Nat
import Mathlib.Data.List.Induction
import Mathlib.Data.String.Basic

/-!
# Items of a ledger

A record is a sequence of items, each counted for one scenario. Writing it adjusts one row for each
of its items, so what an adjustment does to the rows and to their totals says what every ledger
holds: one row for each scenario that an item names, in the order of the names, and in every scope
the sum of what the items in scope weigh.
-/

namespace Cadence

/-- What is counted for one scenario. -/
inductive Item where
  | iteration
  | dropped
  | check (passed : Bool)
  | sample (sample : Sample)
  deriving Repr, DecidableEq

namespace Item

/-- Counts an item. -/
def count : Item → Tally → Tally
  | .iteration => Tally.countIteration
  | .dropped => Tally.countDropped
  | .check passed => Tally.countCheck passed
  | .sample observed => Tally.countSample observed

/-- A field of tallies that every item raises by its weight. -/
structure Weighs (field : Tally → Nat) (weight : Item → Nat) : Prop where
  zero : field {} = 0
  count : ∀ (item : Item) (tally : Tally), field (item.count tally) = field tally + weight item

/-- How many iterations an item counts. -/
def iterations : Item → Nat
  | .iteration => 1
  | .dropped | .check _ | .sample _ => 0

/-- How many dropped arrivals an item counts. -/
def drops : Item → Nat
  | .dropped => 1
  | .iteration | .check _ | .sample _ => 0

theorem weighs_iterations : Weighs (·.iterations) iterations where
  zero := rfl
  count item tally := by cases item <;> rfl

theorem weighs_drops : Weighs (·.dropped) drops where
  zero := rfl
  count item tally := by cases item <;> rfl

end Item

namespace Record

/-- The items of a record, each with the scenario it is counted for. -/
def items : Record → List (String × Item)
  | .iteration scenario outcome =>
    (scenario, .iteration) ::
      (outcome.checks.map (fun check => (check.scenario, .check check.passed)) ++
        outcome.samples.map (fun sample => (sample.scenario, .sample sample)))
  | .check made => [(made.scenario, .check made.passed)]
  | .sample observed => [(observed.scenario, .sample observed)]
  | .dropped scenario => [(scenario, .dropped)]

/-- The scenario for which a record is written. -/
def scenario : Record → String
  | .iteration scenario _ => scenario
  | .check made => made.scenario
  | .sample observed => observed.scenario
  | .dropped scenario => scenario

/-- A record that counts an iteration or a dropped arrival, and nothing for other scenarios than
its own. -/
structure Closed (record : Record) : Prop where
  own : ∀ item ∈ record.items, item.1 = record.scenario
  counts : (record.scenario, .iteration) ∈ record.items ∨ (record.scenario, .dropped) ∈ record.items

end Record

namespace Ledger

/-- Counts an item for its scenario. -/
def enter (ledger : Ledger) (item : String × Item) : Ledger :=
  ledger.adjust item.1 item.2.count

theorem add_eq_foldl (ledger : Ledger) (record : Record) :
    ledger.add record = record.items.foldl enter ledger := by
  cases record with
  | iteration scenario outcome =>
    simp only [add, Record.items, List.foldl_cons, List.foldl_append, List.foldl_map]
    rfl
  | check check => rfl
  | sample sample => rfl
  | dropped scenario => rfl

theorem foldl_add_eq_foldl (ledger : Ledger) (records : List Record) :
    records.foldl add ledger = (records.flatMap Record.items).foldl enter ledger := by
  induction records generalizing ledger with
  | nil => rfl
  | cons record records ih =>
    rw [List.foldl_cons, ih, List.flatMap_cons, List.foldl_append, add_eq_foldl]

theorem ofRecords_concat (records : List Record) (record : Record) :
    ofRecords (records ++ [record]) = (ofRecords records).add record := by
  simp [ofRecords]

/-- The ledger in which items have been entered. -/
def ofItems (items : List (String × Item)) : Ledger := items.foldl enter empty

/-- A ledger holds the items of its records. -/
theorem ofRecords_eq_ofItems (records : List Record) :
    ofRecords records = ofItems (records.flatMap Record.items) :=
  foldl_add_eq_foldl empty records

theorem ofItems_concat (items : List (String × Item)) (item : String × Item) :
    ofItems (items ++ [item]) = (ofItems items).enter item := by
  simp [ofItems]

/-- The names of the rows of a ledger. -/
def names (ledger : Ledger) : List String := ledger.rows.map (·.1)

/-- A row is opened for a name that has none. -/
theorem mem_names_adjustRow (name other : String) (change : Tally → Tally)
    (rows : List (String × Tally)) :
    other ∈ (adjustRow name change rows).map (·.1) ↔ other = name ∨ other ∈ rows.map (·.1) := by
  induction rows with
  | nil => simp [adjustRow]
  | cons row rows ih =>
    obtain ⟨first, tally⟩ := row
    rw [adjustRow]
    split
    next same =>
      subst same
      simp
    next =>
      split
      next => simp
      next =>
        simp only [List.map_cons, List.mem_cons, ih]
        tauto

/-- The rows stay in the order of their names. -/
theorem sorted_adjustRow (name : String) (change : Tally → Tally) {rows : List (String × Tally)}
    (h : (rows.map (·.1)).Pairwise (· < ·)) :
    ((adjustRow name change rows).map (·.1)).Pairwise (· < ·) := by
  induction rows with
  | nil => simp [adjustRow]
  | cons row rows ih =>
    obtain ⟨first, tally⟩ := row
    obtain ⟨least, rest⟩ := List.pairwise_cons.mp h
    rw [adjustRow]
    split
    next => exact h
    next apart =>
      split
      next before =>
        refine List.pairwise_cons.mpr ⟨?_, h⟩
        intro other member
        rcases List.mem_cons.mp member with rfl | member
        · exact before
        · exact before.trans (least other member)
      next behind =>
        refine List.pairwise_cons.mpr ⟨?_, ih rest⟩
        intro other member
        rcases (mem_names_adjustRow name other change rows).mp member with rfl | member
        · exact (lt_or_gt_of_ne apart).resolve_left behind
        · exact least other member

theorem mem_names_ofItems (name : String) (items : List (String × Item)) :
    name ∈ (ofItems items).names ↔ name ∈ items.map (·.1) := by
  induction items using List.reverseRecOn with
  | nil => simp [ofItems, names, empty]
  | append_singleton items item ih =>
    rw [ofItems_concat, names, enter, adjust, mem_names_adjustRow]
    simp only [List.map_append, List.map_cons, List.map_nil, List.mem_append, List.mem_singleton]
    rw [← ih, or_comm]
    rfl

theorem sorted_names_ofItems (items : List (String × Item)) :
    (ofItems items).names.Pairwise (· < ·) := by
  induction items using List.reverseRecOn with
  | nil => exact .nil
  | append_singleton items item ih =>
    rw [ofItems_concat]
    exact sorted_adjustRow item.1 item.2.count ih

theorem sorted_names_ofRecords (records : List Record) :
    (ofRecords records).names.Pairwise (· < ·) := by
  rw [ofRecords_eq_ofItems]
  exact sorted_names_ofItems _

/-- What an item adds to a count in a scope. -/
def weightIn (scope : Option String) (weight : Item → Nat) (item : String × Item) : Nat :=
  if inScope scope item.1 then weight item.2 else 0

section Totals

variable {field : Tally → Nat} {weight : Item → Nat}

theorem total_rows (scope : Option String) (field : Tally → Nat) (rows : List (String × Tally)) :
    total ⟨rows⟩ scope field =
      (rows.map fun row => if inScope scope row.1 then field row.2 else 0).sum := by
  induction rows with
  | nil => rfl
  | cons row rows ih =>
    rw [List.map_cons, List.sum_cons, ← ih]
    unfold total tallies
    rw [List.filter_cons]
    split <;> simp

/-- An item adds its weight to the totals of the scopes that its scenario lies in. -/
theorem total_enter (weighs : Item.Weighs field weight) (ledger : Ledger) (scope : Option String)
    (item : String × Item) :
    (ledger.enter item).total scope field =
      ledger.total scope field + weightIn scope weight item := by
  obtain ⟨rows⟩ := ledger
  obtain ⟨name, item⟩ := item
  unfold enter adjust
  induction rows with
  | nil => simp [adjustRow, total_rows, weightIn, weighs.count, weighs.zero]
  | cons row rows ih =>
    obtain ⟨first, tally⟩ := row
    simp only [total_rows, weightIn] at ih ⊢
    rw [adjustRow]
    split
    next same =>
      subst same
      simp only [List.map_cons, List.sum_cons, weighs.count]
      split <;> omega
    next =>
      split
      next =>
        simp only [List.map_cons, List.sum_cons, weighs.count, weighs.zero, Nat.zero_add]
        omega
      next =>
        simp only [List.map_cons, List.sum_cons, ih]
        omega

theorem total_ofItems (weighs : Item.Weighs field weight) (scope : Option String)
    (items : List (String × Item)) :
    (ofItems items).total scope field = (items.map (weightIn scope weight)).sum := by
  induction items using List.reverseRecOn with
  | nil => rfl
  | append_singleton items item ih => simp [ofItems_concat, total_enter weighs, ih]

/-- Names that are not those of a row weigh nothing in its scope. -/
theorem total_of_not_mem {rows : List (String × Tally)} {name : String}
    (absent : name ∉ rows.map (·.1)) (field : Tally → Nat) :
    total ⟨rows⟩ (some name) field = 0 := by
  rw [total_rows, List.sum_eq_zero]
  intro count member
  obtain ⟨row, within, rfl⟩ := List.mem_map.mp member
  refine if_neg fun same => absent ?_
  rw [eq_of_beq (Option.all_some.symm.trans same)]
  exact List.mem_map_of_mem within

/-- In a ledger with one row for each name, the total of a scenario is the field of its row. -/
theorem total_of_mem {rows : List (String × Tally)} (h : (rows.map (·.1)).Pairwise (· < ·))
    {name : String} {tally : Tally} (member : (name, tally) ∈ rows) (field : Tally → Nat) :
    total ⟨rows⟩ (some name) field = field tally := by
  induction rows with
  | nil => cases member
  | cons row rows ih =>
    obtain ⟨least, rest⟩ := List.pairwise_cons.mp h
    rw [total_rows, List.map_cons, List.sum_cons, ← total_rows]
    rcases List.mem_cons.mp member with rfl | member
    · have absent : name ∉ rows.map (·.1) := fun later => lt_irrefl name (least name later)
      rw [total_of_not_mem absent, if_pos (by simp [inScope]), Nat.add_zero]
    · have before := least name (List.mem_map_of_mem member)
      have apart : inScope (some name) row.1 = false := by
        simpa [inScope] using before.ne'
      rw [ih rest member, apart, if_neg (by simp), Nat.zero_add]

/-- A record adds what its items weigh. -/
theorem total_add (weighs : Item.Weighs field weight) (ledger : Ledger) (scope : Option String)
    (record : Record) :
    (ledger.add record).total scope field =
      ledger.total scope field + (record.items.map (weightIn scope weight)).sum := by
  rw [add_eq_foldl]
  generalize record.items = items
  induction items generalizing ledger with
  | nil => rfl
  | cons item items ih =>
    rw [List.foldl_cons, ih, total_enter weighs, List.map_cons, List.sum_cons, Nat.add_assoc]

end Totals

end Ledger

end Cadence
