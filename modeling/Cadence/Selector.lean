import Cadence.Metric
import Cadence.Text.Blank

/-!
# Metric selectors

A selector names a metric and, between braces, may restrict it to one scenario:
`checks{scenario:ping}`. `Selector.text` writes a selector, `Selector.parse` reads one.

Section 10.5 of the specification.
-/

namespace Cadence

/-- A metric of one scenario, or of the whole run. -/
structure Selector where
  metric : Metric
  scenario : Option String
  deriving Repr, DecidableEq

/-- Why a text is no selector. -/
inductive SelectorFault where
  | unterminated
  | unknownMetric (name : String)
  | notKeyValue (tags : String)
  | unsupportedTag (key : String)
  | emptyScenario
  deriving Repr, DecidableEq

/-- What is said about a text that is no selector. -/
def SelectorFault.message : SelectorFault → String
  | unterminated => "unterminated tag block"
  | unknownMetric name => "unknown metric `" ++ name ++ "`"
  | notKeyValue tags => "tag `" ++ tags ++ "` must be `key:value`"
  | unsupportedTag key => "unsupported tag `" ++ key ++ "` (only `scenario`)"
  | emptyScenario => "empty scenario tag"

namespace Selector

open Text

/-- How a selector is written. -/
def text (selector : Selector) : String :=
  match selector.scenario with
  | none => selector.metric.name
  | some scenario => selector.metric.name ++ "\x7bscenario:" ++ scenario ++ "\x7d"

/-- The name before the first opening brace and, if there is one, the text behind it up to a
closing brace at the very end. -/
def splitTags (s : List Char) : Except SelectorFault (List Char × Option (List Char)) :=
  match s.span (· != '\x7b') with
  | (name, []) => .ok (name, none)
  | (name, _ :: rest) =>
    if rest.getLast? = some '\x7d' then .ok (trim name, some rest.dropLast)
    else .error .unterminated

/-- The metric with that name. -/
def metricNamed (name : List Char) : Except SelectorFault Metric :=
  match Metric.ofName? (String.ofList name) with
  | some metric => .ok metric
  | none => .error (.unknownMetric (String.ofList name))

/-- The scenario that a tag names: `scenario`, a colon, and a text that is not blank. -/
def scenarioOfTag (tags : List Char) : Except SelectorFault String :=
  match tags.span (· != ':') with
  | (_, []) => .error (.notKeyValue (String.ofList tags))
  | (key, _ :: value) =>
    if String.ofList (trim key) ≠ "scenario" then
      .error (.unsupportedTag (String.ofList (trim key)))
    else if trim value = [] then .error .emptyScenario
    else .ok (String.ofList (trim value))

/-- Reads a selector; blanks around its parts do not count. -/
def ofChars (s : List Char) : Except SelectorFault Selector := do
  let (name, tags) ← splitTags (trim s)
  let metric ← metricNamed name
  match tags with
  | none => .ok ⟨metric, none⟩
  | some tags => do
    let scenario ← scenarioOfTag tags
    .ok ⟨metric, some scenario⟩

/-- Reads a selector. -/
def parse (s : String) : Except SelectorFault Selector := ofChars s.toList

end Selector

end Cadence
