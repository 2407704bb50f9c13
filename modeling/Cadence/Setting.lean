import Cadence.Json
import Cadence.Decimal.Reader

/-!
# Settings

Settings are brought together from several sources into one tree before they are given types. Every
value remembers the source it comes from, so that a fault can name it; a table or list that only
came about on the way to something inside it has no source.
-/

namespace Cadence

/-- A value without parts. -/
inductive Scalar where
  | null
  | bool (b : Bool)
  | int (n : Int)
  | float (x : Float)
  | text (s : String)
  deriving Repr, Inhabited

/-- A value with the source it comes from. -/
inductive Setting where
  | scalar (value : Scalar) (origin : Option String)
  | list (items : List Setting) (origin : Option String)
  | table (entries : List (String × Setting)) (origin : Option String)
  deriving Repr, Inhabited

namespace Setting

/-- How many settings a list can have at most, each of which takes 96 bytes: what lies in one piece
takes less than `2 ^ 63`. -/
def mostItems : Nat := (Nat.pow 2 63 - 1) / 96

/-- Nothing, from nowhere. -/
def null : Setting := .scalar .null none

/-- The source of a setting. -/
def origin : Setting → Option String
  | scalar _ origin | list _ origin | table _ origin => origin

/-- Changes the entry of a name; a name without an entry is added. -/
def adjustEntry (name : String) (change : Option Setting → Setting) :
    List (String × Setting) → List (String × Setting)
  | [] => [(name, change none)]
  | (other, value) :: rest =>
    if other = name then (other, change (some value)) :: rest
    else (other, value) :: adjustEntry name change rest

/-- Changes an entry of a table. What is no table becomes one. -/
def adjustName (name : String) (change : Option Setting → Setting) : Setting → Setting
  | table entries origin => table (adjustEntry name change entries) origin
  | _ => table [(name, change none)] none

/-- Changes an item of a list. What is no list becomes one. A negative index counts from the end;
the list is filled up with nulls as far as the index needs it. -/
def adjustItem (index : Int) (change : Setting → Setting) (setting : Setting) : Setting :=
  let (items, origin) := match setting with
    | list items origin => (items, origin)
    | _ => ([], none)
  match index with
  | .ofNat i =>
    list ((items ++ List.replicate (i + 1 - items.length) null).modify i change) origin
  | .negSucc i =>
    let missing := i + 1 - items.length
    list ((List.replicate missing null ++ items).modify (items.length - (i + 1)) change) origin

mutual

/-- Puts a value under a name. A table is put in entry by entry, so that what it does not mention
stays. -/
def assign (name : String) (target : Setting) : Setting → Setting
  | table entries _ =>
    target.adjustName name fun existing => assignAll (existing.getD (table [] none)) entries
  | scalar value origin => target.adjustName name fun _ => scalar value origin
  | list items origin => target.adjustName name fun _ => list items origin

/-- Puts entries into a table one after another. -/
def assignAll (target : Setting) : List (String × Setting) → Setting
  | [] => target
  | (name, value) :: rest => assignAll (assign name target value) rest

end

mutual

/-- A JSON value as a setting. Integers beyond 64 bits with sign become floating. -/
def ofJson (origin : Option String) : Json → Setting
  | .null => scalar .null origin
  | .bool b => scalar (.bool b) origin
  | .int n =>
    let fits := Int64.minValue.toInt ≤ n ∧ n ≤ Int64.maxValue.toInt
    scalar (if fits then .int n else .float (Float.ofInt n)) origin
  | .float x => scalar (.float x) origin
  | .str s => scalar (.text s) origin
  | .arr items => list (ofItems origin items) origin
  | .obj fields => table (ofFields origin fields) origin

/-- The items of an array as settings. -/
def ofItems (origin : Option String) : List Json → List Setting
  | [] => []
  | item :: rest => ofJson origin item :: ofItems origin rest

/-- The fields of an object as settings. Of fields of the same name the last one counts. -/
def ofFields (origin : Option String) : List (String × Json) → List (String × Setting)
  | [] => []
  | (name, value) :: rest =>
    let others := ofFields origin rest
    if rest.any fun (other, _) => other == name then others
    else (name, ofJson origin value) :: others

end

end Setting

/-- Reads a decimal integer of 64 bits with sign. -/
def Scalar.int? (s : String) : Option Int :=
  let (negative, ds) := Decimal.splitSign s.toList
  if ds.isEmpty || !ds.all Char.isDigit then none
  else
    let n := (Decimal.digitsValue 0 ds : Int)
    let n := if negative then -n else n
    if Int64.minValue.toInt ≤ n ∧ n ≤ Int64.maxValue.toInt then some n else none

end Cadence
