import Cadence.Decimal.Reader
import Cadence.Metric
import Cadence.Text.Blank

/-!
# Predicates

A predicate compares an aggregation with a bound: `p(95)<500`. `Predicate.text` writes a predicate,
`Predicate.parse` reads one, and `Predicate.holds` decides it for an observed number.

Section 10.5 of the specification.
-/

namespace Cadence

inductive Comparison where
  | lt
  | le
  | gt
  | ge
  | eq
  deriving Repr, DecidableEq

/-- A comparison of an aggregation with a bound. -/
structure Predicate where
  aggregation : Aggregation
  comparison : Comparison
  bound : Float
  deriving Repr, BEq

/-- Why a text is no predicate. -/
inductive PredicateFault where
  | missingOperator
  | unsupportedOperator (rest : String)
  | invalidBound (text : String)
  | boundNotFinite (text : String)
  | unknownAggregation (text : String)
  | invalidPercentile (text : String)
  | percentileOutside (p : Float)
  deriving Repr

/-- What is said about a text that is no predicate. -/
def PredicateFault.message : PredicateFault → String
  | missingOperator => "missing comparison operator"
  | unsupportedOperator rest => "unsupported operator in `" ++ rest ++ "`"
  | invalidBound text => "invalid bound `" ++ text ++ "`"
  | boundNotFinite text => "bound `" ++ text ++ "` is not finite"
  | unknownAggregation text => "unknown aggregation `" ++ text ++ "`"
  | invalidPercentile text => "invalid percentile `" ++ text ++ "`"
  | percentileOutside p => "percentile " ++ Decimal.plain p ++ " outside [0, 100]"

namespace Comparison

/-- How a comparison is written. -/
def symbol : Comparison → String
  | lt => "<"
  | le => "<="
  | gt => ">"
  | ge => ">="
  | eq => "=="

/-- The comparison at the front of a text, the longest that fits, and what follows it. -/
def read? : List Char → Option (Comparison × List Char)
  | '<' :: '=' :: rest => some (le, rest)
  | '>' :: '=' :: rest => some (ge, rest)
  | '=' :: '=' :: rest => some (eq, rest)
  | '<' :: rest => some (lt, rest)
  | '>' :: rest => some (gt, rest)
  | _ => none

/-- Whether the comparison is true of two numbers; no comparison is true of what is no number. -/
def holds (comparison : Comparison) (observed bound : Float) : Bool :=
  match comparison with
  | lt => observed < bound
  | le => observed ≤ bound
  | gt => bound < observed
  | ge => bound ≤ observed
  | eq => observed == bound

end Comparison

namespace Aggregation

/-- The number text between `p(` and `)`. -/
def percentileText? : List Char → Option (List Char)
  | 'p' :: '(' :: rest => if rest.getLast? = some ')' then some rest.dropLast else none
  | _ => none

/-- Reads an aggregation. -/
def ofChars (s : List Char) : Except PredicateFault Aggregation :=
  match String.ofList s with
  | "rate" => .ok rate
  | "count" => .ok count
  | "avg" => .ok avg
  | "min" => .ok min
  | "max" => .ok max
  | "med" => .ok med
  | text =>
    match percentileText? s with
    | none => .error (.unknownAggregation text)
    | some inner =>
      match Decimal.readChars? inner with
      | none => .error (.invalidPercentile (String.ofList inner))
      | some p => if 0 ≤ p ∧ p ≤ 100 then .ok (percentile p) else .error (.percentileOutside p)

end Aggregation

namespace Predicate

open Text

/-- How a predicate is written. -/
def text (predicate : Predicate) : String :=
  predicate.aggregation.text ++ predicate.comparison.symbol ++ Decimal.plain predicate.bound

/-- A character that can begin a comparison. -/
def isOperator (c : Char) : Bool := c == '<' || c == '>' || c == '='

/-- Reads the number on the right of a comparison, which has to be finite. -/
def readBound (s : List Char) : Except PredicateFault Float :=
  match Decimal.readChars? s with
  | none => .error (.invalidBound (String.ofList s))
  | some bound =>
    if bound.isFinite then .ok bound else .error (.boundNotFinite (String.ofList s))

/-- Reads a predicate from a text without blanks. The first character that can begin a comparison
divides it; the bound is looked at before the aggregation. -/
def ofCompact (s : List Char) : Except PredicateFault Predicate :=
  match s.span fun c => !isOperator c with
  | (_, []) => .error .missingOperator
  | (left, rest) =>
    match Comparison.read? rest with
    | none => .error (.unsupportedOperator (String.ofList rest))
    | some (comparison, right) => do
      let bound ← readBound right
      let aggregation ← Aggregation.ofChars left
      .ok ⟨aggregation, comparison, bound⟩

/-- Reads a predicate; blanks do not count anywhere. -/
def parse (s : String) : Except PredicateFault Predicate := ofCompact (withoutBlanks s.toList)

/-- Whether an observed number satisfies the predicate. -/
def holds (predicate : Predicate) (observed : Float) : Bool :=
  predicate.comparison.holds observed predicate.bound

end Predicate

end Cadence
