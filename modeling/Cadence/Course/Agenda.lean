/-!
# Agendas

What is to happen, each with the millisecond at which it is due. The earliest comes first; of those
due together, the one entered first.
-/

namespace Cadence

/-- An entry of an agenda. -/
structure Entry (α : Type) where
  due : Nat
  item : α
  deriving Repr

/-- Entries in the order in which they are due. -/
abbrev Agenda (α : Type) : Type := List (Entry α)

namespace Agenda

variable {α : Type}

/-- Enters an item behind all that are due no later. -/
def enter (due : Nat) (item : α) : Agenda α → Agenda α
  | [] => [⟨due, item⟩]
  | first :: rest =>
    if first.due ≤ due then first :: enter due item rest else ⟨due, item⟩ :: first :: rest

/-- Enters items one after another. -/
def enterAll (agenda : Agenda α) (items : List (Nat × α)) : Agenda α :=
  items.foldl (fun agenda (due, item) => enter due item agenda) agenda

end Agenda

end Cadence
