import Cadence.Proofs.Reading
import Cadence.Selector
import Mathlib.Data.List.Basic

/-!
# How selectors are read

A text is read as a selector exactly if it names a metric and nothing else, or a metric and, up to a
closing brace at its very end, the tag of a scenario. What stands inside the name of a scenario,
braces and colons among it, does not matter. So a written selector is read as the metric and the
scenario that were written, unless the name of the scenario is nothing but blanks or has blanks at
its ends: those do not come back.
-/

namespace Cadence.Selector

open Text

/-- A selector whose scenario has a name that reading keeps: it is not empty, and no blank stands at
either end of it. -/
def Kept (selector : Selector) : Prop :=
  ∀ scenario, selector.scenario = some scenario → scenario ≠ "" ∧ Trimmed scenario.toList

section Write

variable {metric : Metric} {scenario : String} {c : Char}

/-- The names of the metrics have no blanks and no braces. -/
theorem mem_name (h : c ∈ metric.name.toList) : isBlank c = false ∧ c ≠ '\x7b' := by
  have clean : (metric.name.toList.all fun c => !isBlank c && c != '\x7b') = true := by
    cases metric <;> decide
  simpa using List.all_eq_true.mp clean c h

theorem trimmed_name (metric : Metric) : Trimmed metric.name.toList :=
  ⟨fun _ h => (mem_name (List.mem_of_head? h)).1, fun _ h => (mem_name (List.mem_of_getLast? h)).1⟩

theorem name_ne_nil (metric : Metric) : metric.name.toList ≠ [] := by
  cases metric <;> decide

@[simp] theorem metricNamed_name (metric : Metric) :
    metricNamed metric.name.toList = .ok metric := by
  simp [metricNamed]

theorem text_none (metric : Metric) : (text ⟨metric, none⟩).toList = metric.name.toList := rfl

theorem text_some (metric : Metric) (scenario : String) :
    (text ⟨metric, some scenario⟩).toList =
      metric.name.toList ++
        '\x7b' :: ("scenario".toList ++ ':' :: scenario.toList ++ ['\x7d']) := by
  simp [text]

/-- No selector is written with blanks at its ends. -/
theorem trimmed_text (selector : Selector) : Trimmed selector.text.toList := by
  obtain ⟨metric, _ | scenario⟩ := selector
  · exact trimmed_name metric
  · rw [text_some]
    refine ⟨fun c first => (trimmed_name metric).1 c ?_, fun c last => ?_⟩
    · rwa [List.head?_append, Option.or_of_isSome (by simpa using name_ne_nil metric)] at first
    · rw [← List.cons_append, ← List.append_assoc, List.getLast?_concat] at last
      cases last
      rfl

end Write

section Parts

variable {metric : Metric}

/-- Only its name names a metric. -/
theorem metricNamed_eq_ok_iff {name : List Char} :
    metricNamed name = .ok metric ↔ name = metric.name.toList := by
  constructor
  · intro h
    unfold metricNamed at h
    split at h
    next found =>
      cases h
      rw [Metric.name_of_ofName? found, String.toList_ofList]
    next => cases h
  · rintro rfl
    exact metricNamed_name metric

/-- A text without a brace is a name as a whole. -/
theorem splitTags_of_notMem {s : List Char} (plain : '\x7b' ∉ s) :
    splitTags s = .ok (s, none) := by
  unfold splitTags
  rw [span_bne_of_notMem plain]

/-- Behind the first brace stands everything up to the brace at the end, whatever it is. -/
theorem splitTags_append {name rest : List Char} (first : '\x7b' ∉ name) :
    splitTags (name ++ '\x7b' :: rest) =
      if rest.getLast? = some '\x7d' then .ok (trim name, some rest.dropLast)
      else .error .unterminated := by
  unfold splitTags
  rw [span_bne_append first]

/-- A name alone. -/
theorem splitTags_eq_ok_none_iff {s name : List Char} :
    splitTags s = .ok (name, none) ↔ '\x7b' ∉ s ∧ s = name := by
  constructor
  · intro h
    by_cases brace : '\x7b' ∈ s
    · obtain ⟨before, rest, rfl, first⟩ := List.eq_append_cons_of_mem brace
      rw [splitTags_append first] at h
      split_ifs at h
      cases h
    · rw [splitTags_of_notMem brace] at h
      cases h
      exact ⟨brace, rfl⟩
  · rintro ⟨plain, rfl⟩
    exact splitTags_of_notMem plain

/-- A name and the text between the braces behind it. -/
theorem splitTags_eq_ok_some_iff {s name tags : List Char} :
    splitTags s = .ok (name, some tags) ↔
      ∃ before, '\x7b' ∉ before ∧ s = before ++ '\x7b' :: (tags ++ ['\x7d']) ∧
        trim before = name := by
  constructor
  · intro h
    by_cases brace : '\x7b' ∈ s
    · obtain ⟨before, rest, rfl, first⟩ := List.eq_append_cons_of_mem brace
      rw [splitTags_append first] at h
      split_ifs at h with closed
      cases h
      refine ⟨before, first, ?_, rfl⟩
      rw [List.dropLast_append_getLast? _ closed]
    · rw [splitTags_of_notMem brace] at h
      cases h
  · rintro ⟨before, first, rfl, rfl⟩
    rw [splitTags_append first, if_pos (by simp), List.dropLast_concat]

/-- A tag names a scenario behind its first colon, whatever else stands there. -/
theorem scenarioOfTag_append {key value : List Char} (first : ':' ∉ key) :
    scenarioOfTag (key ++ ':' :: value) =
      if String.ofList (trim key) ≠ "scenario" then
        .error (.unsupportedTag (String.ofList (trim key)))
      else if trim value = [] then .error .emptyScenario
      else .ok (String.ofList (trim value)) := by
  unfold scenarioOfTag
  rw [span_bne_append first]

theorem scenarioOfTag_eq_ok_iff {tags : List Char} {scenario : String} :
    scenarioOfTag tags = .ok scenario ↔
      ∃ key value, ':' ∉ key ∧ tags = key ++ ':' :: value ∧ trim key = "scenario".toList ∧
        trim value = scenario.toList ∧ scenario ≠ "" := by
  constructor
  · intro h
    by_cases colon : ':' ∈ tags
    · obtain ⟨key, value, rfl, first⟩ := List.eq_append_cons_of_mem colon
      rw [scenarioOfTag_append first] at h
      split_ifs at h with other empty
      cases h
      refine ⟨key, value, first, rfl, ?_, String.toList_ofList.symm, ?_⟩
      · rw [← not_not.mp other, String.toList_ofList]
      · simpa [← String.toList_inj] using empty
    · unfold scenarioOfTag at h
      rw [span_bne_of_notMem colon] at h
      cases h
  · rintro ⟨key, value, first, rfl, tag, name, some⟩
    rw [scenarioOfTag_append first, tag, name, String.ofList_toList, String.ofList_toList,
      if_neg (not_not.mpr rfl), if_neg (by simpa using some)]

end Parts

/-- A text that names a metric and a scenario: the first brace opens the tag of the scenario, and a
brace at the very end closes it; the first colon in the tag stands between the word `scenario` and
the name of the scenario. Blanks around the three parts do not count. -/
structure Tagged (s : List Char) (metric : Metric) (scenario : String) : Prop where
  parts : ∃ name key value, s = name ++ '\x7b' :: (key ++ ':' :: value ++ ['\x7d']) ∧
    '\x7b' ∉ name ∧ ':' ∉ key ∧ trim name = metric.name.toList ∧
    trim key = "scenario".toList ∧ trim value = scenario.toList
  some : scenario ≠ ""

section Read

variable {s : String} {metric : Metric} {scenario : String} {selector : Selector}

theorem parse_eq_ok_none_iff :
    parse s = .ok ⟨metric, none⟩ ↔ trim s.toList = metric.name.toList := by
  constructor
  · intro h
    obtain ⟨⟨name, tags⟩, split, h⟩ := bind_eq_ok.mp h
    obtain ⟨found, named, h⟩ := bind_eq_ok.mp h
    cases tags with
    | none =>
      cases h
      rw [(splitTags_eq_ok_none_iff.mp split).2]
      exact metricNamed_eq_ok_iff.mp named
    | some tags =>
      obtain ⟨scenario, -, h⟩ := bind_eq_ok.mp h
      cases h
  · intro h
    have plain : '\x7b' ∉ metric.name.toList := fun member => (mem_name member).2 rfl
    unfold parse ofChars
    rw [h, splitTags_of_notMem plain]
    simp [bind, Except.bind]

theorem parse_eq_ok_some_iff :
    parse s = .ok ⟨metric, some scenario⟩ ↔ Tagged (trim s.toList) metric scenario := by
  constructor
  · intro h
    obtain ⟨⟨name, tags⟩, split, h⟩ := bind_eq_ok.mp h
    obtain ⟨found, named, h⟩ := bind_eq_ok.mp h
    cases tags with
    | none => cases h
    | some tags =>
      obtain ⟨read, tag, h⟩ := bind_eq_ok.mp h
      cases h
      obtain ⟨before, first, whole, rfl⟩ := splitTags_eq_ok_some_iff.mp split
      obtain ⟨key, value, first', rfl, word, own, some⟩ := scenarioOfTag_eq_ok_iff.mp tag
      exact ⟨⟨before, key, value, whole, first, first', metricNamed_eq_ok_iff.mp named, word, own⟩,
        some⟩
  · rintro ⟨⟨name, key, value, whole, first, first', named, word, own⟩, some⟩
    have split := splitTags_eq_ok_some_iff.mpr ⟨name, first, whole, named⟩
    have tag := scenarioOfTag_eq_ok_iff.mpr ⟨key, value, first', rfl, word, own, some⟩
    unfold parse ofChars
    rw [split]
    simp [bind, Except.bind, tag]

/-- What is read is kept when it is written and read again. -/
theorem kept_of_parse (h : parse s = .ok selector) : selector.Kept := by
  intro scenario same
  obtain ⟨metric, scenario'⟩ := selector
  cases same
  obtain ⟨⟨name, key, value, -, -, -, -, -, own⟩, some⟩ := parse_eq_ok_some_iff.mp h
  exact ⟨some, own ▸ trimmed_trim value⟩

/-- A selector is read back if reading keeps the name of its scenario. -/
theorem parse_text (kept : selector.Kept) : parse selector.text = .ok selector := by
  obtain ⟨metric, _ | scenario⟩ := selector
  · rw [parse_eq_ok_none_iff, trim_eq_self (trimmed_text _), text_none]
  · obtain ⟨some, trimmed⟩ := kept scenario rfl
    rw [parse_eq_ok_some_iff, trim_eq_self (trimmed_text _), text_some]
    refine ⟨⟨_, _, _, rfl, fun member => (mem_name member).2 rfl, by decide, ?_, by decide, ?_⟩,
      some⟩
    · exact trim_eq_self (trimmed_name metric)
    · exact trim_eq_self trimmed

/-- A text is read as a metric of the whole run exactly if nothing but blanks surrounds the name of
the metric, and as a metric of one scenario exactly if the scenario is tagged behind that name. All
other texts are refused. -/
theorem read_iff_named_or_tagged (s : String) :
    (∀ metric, parse s = .ok ⟨metric, none⟩ ↔ trim s.toList = metric.name.toList) ∧
    (∀ metric scenario, parse s = .ok ⟨metric, some scenario⟩ ↔
      Tagged (trim s.toList) metric scenario) ∧
    ((∃ fault, parse s = .error fault) ↔ ∀ metric, trim s.toList ≠ metric.name.toList ∧
      ∀ scenario, ¬Tagged (trim s.toList) metric scenario) := by
  refine ⟨fun metric => parse_eq_ok_none_iff, fun metric scenario => parse_eq_ok_some_iff, ?_⟩
  simp only [ne_eq, ← parse_eq_ok_none_iff, ← parse_eq_ok_some_iff]
  constructor
  · rintro ⟨fault, refused⟩ metric
    simp [refused]
  · intro other
    cases read : parse s with
    | error fault => exact ⟨fault, rfl⟩
    | ok selector =>
      obtain ⟨metric, _ | scenario⟩ := selector
      · exact absurd read (other metric).1
      · exact absurd read ((other metric).2 scenario)

end Read

end Cadence.Selector
