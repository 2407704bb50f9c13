/-!
# JSON documents

The values that reports are written in and configuration files are read from. Fields keep the order
in which they are written.
-/

namespace Cadence

/-- A JSON value. Integers and other numbers are kept apart. -/
inductive Json where
  | null
  | bool (b : Bool)
  | int (n : Int)
  | float (x : Float)
  | str (s : String)
  | arr (items : List Json)
  | obj (fields : List (String × Json))
  deriving Repr, Inhabited

namespace Json

def nat (n : Nat) : Json := .int n

/-- A value that may be missing. -/
def optional {α : Type} (f : α → Json) : Option α → Json
  | none => .null
  | some x => f x

end Json

end Cadence
