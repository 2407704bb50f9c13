import Cadence.Proofs.Decimal.Layout
import Cadence.Proofs.Key
import Cadence.Proofs.Reading
import Cadence.Report.Text

/-!
# The report for the terminal can be trusted

Every count, mark and reason that the text shows can be told from it: two reports about the same
scenarios and thresholds have the same text only if they agree on all of them. Lines that are left
out are told from those that are there: a line about losses holds no slash, that of a scenario does.
-/

namespace Cadence

namespace Text

/-- A number can be told from what stands behind it, if that begins with no digit. -/
theorem toDigits_append_inj {m n : Nat} {stop stop' : Char} {rest rest' : List Char}
    (ends : stop.isDigit = false) (ends' : stop'.isDigit = false)
    (same : Nat.toDigits 10 m ++ stop :: rest = Nat.toDigits 10 n ++ stop' :: rest') :
    m = n ∧ rest = rest' := by
  have digits (k : Nat) : ∀ c ∈ Nat.toDigits 10 k, c.isDigit = true :=
    fun _ => Nat.isDigit_of_mem_toDigits (by decide) (by decide)
  obtain ⟨numbers, -, rests⟩ := append_cons_inj (digits m) (digits n) ends ends' same
  exact ⟨Key.digits_inj numbers, rests⟩

end Text

namespace RunId

/-- The id of a run stands on one line. -/
theorem break_notMem_text (id : RunId) : '\n' ∉ id.text.toList := by
  have digit (i : Nat) : Nat.digitChar ((id.value >>> (4 * (31 - i))) % 16) ≠ '\n' := by
    have all : ∀ n ∈ List.range 16, Nat.digitChar n ≠ '\n' := by decide
    exact all _ (List.mem_range.mpr (Nat.mod_lt _ (by decide)))
  have digits : '\n' ∉ id.digits := by
    intro member
    obtain ⟨i, -, same⟩ := List.mem_map.mp member
    exact digit i same
  have taken (n k : Nat) : '\n' ∉ (id.digits.drop n).take k := fun member =>
    digits (List.mem_of_mem_drop (List.mem_of_mem_take member))
  have front (k : Nat) : '\n' ∉ id.digits.take k := taken 0 k
  simp [text, groups, cut, taken, front]

end RunId

namespace Report

/-- The checks that are shown for a scenario: those that were recorded under its name. -/
def shownChecks : Option Summary → Nat × Nat
  | none => (0, 0)
  | some summary => (summary.checksPassed, summary.checksTotal)

theorem toList_scenarioLine (stats : ScenarioStats) (summary : Option Summary) :
    (scenarioLine stats summary).toList =
      "  ".toList ++ stats.scenario.toList ++ ": rate ".toList ++
        ((Decimal.plain stats.targetRate).toList ++ '/' :: ("s, ".toList ++
        (Nat.toDigits 10 stats.workers ++ ' ' :: ("workers, ".toList ++
        (Nat.toDigits 10 stats.dispatched ++ ' ' :: ("dispatched, ".toList ++
        (Nat.toDigits 10 stats.completed ++ ' ' :: ("completed, checks ".toList ++
        (Nat.toDigits 10 (shownChecks summary).1 ++ '/' ::
          Nat.toDigits 10 (shownChecks summary).2))))))))) := by
  unfold scenarioLine
  cases summary with
  | none => simp [shownChecks]
  | some summary => simp [shownChecks]

/-- The line of a scenario tells all that it shows but the rate. -/
theorem scenarioLine_inj {stats stats' : ScenarioStats} {summary summary' : Option Summary}
    (named : stats.scenario = stats'.scenario)
    (same : scenarioLine stats summary = scenarioLine stats' summary') :
    stats.workers = stats'.workers ∧ stats.dispatched = stats'.dispatched ∧
      stats.completed = stats'.completed ∧ shownChecks summary = shownChecks summary' := by
  have lines := congrArg String.toList same
  rw [toList_scenarioLine, toList_scenarioLine, named] at lines
  have numeral (x : Float) : ∀ c ∈ (Decimal.plain x).toList, Decimal.isNumeral c = true :=
    Decimal.isNumeral_plain x
  obtain ⟨-, -, rest⟩ := Text.append_cons_inj (numeral _) (numeral _) (by decide) (by decide)
    (List.append_cancel_left lines)
  obtain ⟨workers, rest⟩ := Text.toDigits_append_inj (by decide) (by decide)
    (List.append_cancel_left rest)
  obtain ⟨dispatched, rest⟩ := Text.toDigits_append_inj (by decide) (by decide)
    (List.append_cancel_left rest)
  obtain ⟨completed, rest⟩ := Text.toDigits_append_inj (by decide) (by decide)
    (List.append_cancel_left rest)
  obtain ⟨passed, rest⟩ := Text.toDigits_append_inj (by decide) (by decide)
    (List.append_cancel_left rest)
  exact ⟨workers, dispatched, completed, Prod.ext passed (Key.digits_inj rest)⟩

/-- The lines about the losses of a scenario. -/
def lossLines (stats : ScenarioStats) : List String :=
  (if 0 < stats.dropped then ["    dropped arrivals: " ++ Nat.repr stats.dropped] else []) ++
    (if 0 < stats.abandoned then ["    abandoned iterations: " ++ Nat.repr stats.abandoned] else [])

theorem scenarioLines_eq (report : Report) (stats : ScenarioStats) :
    scenarioLines report stats =
      scenarioLine stats (report.summaryOf? stats.scenario) :: lossLines stats := by
  simp [scenarioLines, lossLines]

/-- Whether a line tells of losses: it holds something, but no slash. -/
def tellsLoss (line : String) : Bool := !line.toList.isEmpty && !line.toList.contains '/'

theorem tellsLoss_of_mem_lossLines (stats : ScenarioStats) :
    ∀ line ∈ lossLines stats, tellsLoss line = true := by
  have slashless (n : Nat) : '/' ∉ Nat.toDigits 10 n := fun member =>
    absurd (Nat.isDigit_of_mem_toDigits (by decide) (by decide) member) (by decide)
  unfold lossLines
  split_ifs <;> simp [tellsLoss, slashless]

theorem tellsLoss_scenarioLine (stats : ScenarioStats) (summary : Option Summary) :
    tellsLoss (scenarioLine stats summary) = false := by
  simp [tellsLoss, toList_scenarioLine]

theorem lossLines_inj {stats stats' : ScenarioStats} (same : lossLines stats = lossLines stats') :
    stats.dropped = stats'.dropped ∧ stats.abandoned = stats'.abandoned := by
  have number (front : String) (m n : Nat) : front ++ Nat.repr m = front ++ Nat.repr n ↔ m = n := by
    refine ⟨fun same => ?_, fun same => by rw [same]⟩
    have lists := congrArg String.toList same
    rw [String.toList_append, String.toList_append, Nat.toList_repr, Nat.toList_repr] at lists
    exact Key.digits_inj (List.append_cancel_left lists)
  have apart (m n : Nat) :
      "    dropped arrivals: " ++ Nat.repr m ≠ "    abandoned iterations: " ++ Nat.repr n := by
    intro same
    have lists := congrArg String.toList same
    simp at lists
  unfold lossLines at same
  -- With a loss on one side only, the lists differ in length or in the kind of their first line.
  split_ifs at same <;>
    simp only [List.cons_append, List.nil_append, List.append_nil, List.cons.injEq, number, apart,
      (apart _ _).symm, reduceCtorEq, and_true, and_false] at same <;>
    omega

/-- What the text shows of a scenario besides its rate. -/
structure Shown where
  workers : Nat
  dispatched : Nat
  completed : Nat
  dropped : Nat
  abandoned : Nat
  /-- How many checks passed, and how many there were. -/
  checks : Nat × Nat
  deriving DecidableEq

def shown (report : Report) (stats : ScenarioStats) : Shown where
  workers := stats.workers
  dispatched := stats.dispatched
  completed := stats.completed
  dropped := stats.dropped
  abandoned := stats.abandoned
  checks := shownChecks (report.summaryOf? stats.scenario)

/-- The lines of scenarios, with an empty line behind them, begin with one that tells no losses. -/
theorem exists_first_line (report : Report) (scenarios : List ScenarioStats) (rest : List String) :
    ∃ first others, scenarios.flatMap (scenarioLines report) ++ "" :: rest = first :: others ∧
      tellsLoss first = false := by
  cases scenarios with
  | nil => exact ⟨"", rest, rfl, rfl⟩
  | cons stats scenarios =>
    rw [List.flatMap_cons, scenarioLines_eq]
    exact ⟨_, _, rfl, tellsLoss_scenarioLine stats _⟩

/-- The lines of scenarios tell what is shown of each of them, and where they end. -/
theorem flatMap_scenarioLines_inj {report report' : Report} {scenarios scenarios' : List ScenarioStats}
    {rest rest' : List String}
    (names : scenarios.map (·.scenario) = scenarios'.map (·.scenario))
    (same : scenarios.flatMap (scenarioLines report) ++ "" :: rest =
      scenarios'.flatMap (scenarioLines report') ++ "" :: rest') :
    scenarios.map report.shown = scenarios'.map report'.shown ∧ rest = rest' := by
  induction scenarios generalizing scenarios' with
  | nil =>
    obtain rfl : scenarios' = [] := by simpa using names.symm
    exact ⟨rfl, (List.cons.inj same).2⟩
  | cons stats scenarios ih =>
    obtain ⟨stats', others, rfl⟩ : ∃ stats' others, scenarios' = stats' :: others := by
      cases scenarios' with
      | nil => simp at names
      | cons stats' others => exact ⟨stats', others, rfl⟩
    rw [List.map_cons, List.map_cons, List.cons.injEq] at names
    rw [List.flatMap_cons, List.flatMap_cons, scenarioLines_eq, scenarioLines_eq,
      List.cons_append, List.cons_append, List.cons_append, List.cons_append, List.cons.injEq,
      List.append_assoc, List.append_assoc] at same
    obtain ⟨workers, dispatched, completed, checks⟩ := scenarioLine_inj names.1 same.1
    obtain ⟨first, behind, next, plain⟩ := exists_first_line report scenarios rest
    obtain ⟨first', behind', next', plain'⟩ := exists_first_line report' others rest'
    rw [next, next'] at same
    obtain ⟨losses, rfl, rfl⟩ := Text.append_cons_inj (tellsLoss_of_mem_lossLines stats)
      (tellsLoss_of_mem_lossLines stats') plain plain' same.2
    obtain ⟨dropped, abandoned⟩ := lossLines_inj losses
    obtain ⟨figures, rests⟩ := ih names.2 (next.trans next'.symm)
    refine ⟨?_, rests⟩
    rw [List.map_cons, List.map_cons, figures]
    congr 1
    rw [shown, shown, workers, dispatched, completed, dropped, abandoned, checks]

/-- The line of a threshold tells whether it passed. -/
theorem thresholdLine_inj {judgement judgement' : Judgement}
    (same : thresholdLine judgement = thresholdLine judgement') :
    judgement.passed = judgement'.passed := by
  have lists := congrArg String.toList same
  cases passed : judgement.passed <;> cases passed' : judgement'.passed <;>
    simp [thresholdLine, mark, passed, passed'] at lists ⊢

theorem toList_joinLines (lines : List String) :
    (joinLines lines).toList = lines.flatMap fun line => line.toList ++ ['\n'] := by
  simp [joinLines, String.toList_join, List.flatMap_map]

/-- Lines without line breaks can be told from the text that they are joined to. -/
theorem joinLines_inj {lines lines' : List String} (single : ∀ line ∈ lines, '\n' ∉ line.toList)
    (single' : ∀ line ∈ lines', '\n' ∉ line.toList) (same : joinLines lines = joinLines lines') :
    lines = lines' := by
  have lists := congrArg String.toList same
  rw [toList_joinLines, toList_joinLines] at lists
  clear same
  induction lines generalizing lines' with
  | nil =>
    cases lines' with
    | nil => rfl
    | cons line lines' => simp at lists
  | cons line lines ih =>
    cases lines' with
    | nil => simp at lists
    | cons line' lines' =>
      rw [List.forall_mem_cons] at single single'
      rw [List.flatMap_cons, List.flatMap_cons, List.append_assoc, List.append_assoc] at lists
      obtain ⟨first, -, rest⟩ := Text.append_cons_inj (Text.forall_bne_of_notMem single.1)
        (Text.forall_bne_of_notMem single'.1) (by simp) (by simp) lists
      rw [String.toList_injective first, ih single.2 single'.2 rest]

/-- None of the texts in a report breaks a line. -/
structure SingleLines (report : Report) : Prop where
  aborted : ∀ reason ∈ report.verdict.aborted, '\n' ∉ reason.toList
  judgements : ∀ judgement ∈ report.verdict.judgements,
    '\n' ∉ judgement.metric.toList ∧ '\n' ∉ judgement.predicate.toList
  scenarios : ∀ stats ∈ report.scenarios, '\n' ∉ stats.scenario.toList

theorem break_notMem_of_isNumeral {s : List Char} (h : ∀ c ∈ s, Decimal.isNumeral c = true) :
    '\n' ∉ s := fun member => absurd (h _ member) (by decide)

theorem break_notMem_observedText (observed : Option Float) :
    '\n' ∉ (observedText observed).toList := by
  unfold observedText
  split
  · decide
  · split
    · exact break_notMem_of_isNumeral (Decimal.isNumeral_fixed _ _)
    · exact break_notMem_of_isNumeral (Decimal.isNumeral_fixed _ _)

theorem break_notMem_toDigits (n : Nat) : '\n' ∉ Nat.toDigits 10 n :=
  break_notMem_of_isNumeral fun _ => Decimal.isNumeral_of_mem_toDigits

theorem break_notMem_scenarioLines {report : Report} {stats : ScenarioStats}
    (single : '\n' ∉ stats.scenario.toList) :
    ∀ line ∈ scenarioLines report stats, '\n' ∉ line.toList := by
  have rate := break_notMem_of_isNumeral (Decimal.isNumeral_plain stats.targetRate)
  rw [scenarioLines_eq, List.forall_mem_cons, toList_scenarioLine, lossLines,
    List.forall_mem_append]
  refine ⟨by simp [single, rate, break_notMem_toDigits], ?_, ?_⟩
  · split_ifs <;> simp [break_notMem_toDigits]
  · split_ifs <;> simp [break_notMem_toDigits]

theorem break_notMem_verdictWord (report : Report) : '\n' ∉ report.verdictWord.toList := by
  unfold verdictWord
  split <;> decide

/-- Every line of the text is a single one. -/
theorem SingleLines.textLines {report : Report} (h : report.SingleLines) :
    ∀ line ∈ report.textLines, '\n' ∉ line.toList := by
  have head := break_notMem_of_isNumeral (Decimal.isNumeral_fixed 1 report.elapsed)
  have thresholds : ∀ judgement ∈ report.verdict.judgements,
      '\n' ∉ (thresholdLine judgement).toList := by
    intro judgement member
    obtain ⟨metric, predicate⟩ := h.judgements judgement member
    have marked : '\n' ∉ (mark judgement.passed).toList := by
      cases judgement.passed <;> decide
    simp [thresholdLine, metric, predicate, marked, break_notMem_observedText]
  have scenarios : ∀ stats ∈ report.scenarios, ∀ line ∈ scenarioLines report stats,
      '\n' ∉ line.toList := fun stats member =>
    break_notMem_scenarioLines (h.scenarios stats member)
  unfold Report.textLines
  simp only [List.forall_mem_append, List.forall_mem_cons, List.forall_mem_map,
    List.forall_mem_flatMap]
  refine ⟨⟨⟨⟨⟨⟨⟨?_, by simp⟩, thresholds⟩, by simp⟩, scenarios⟩, by simp⟩, ?_⟩,
    by simp [break_notMem_verdictWord]⟩
  · simp [head, RunId.break_notMem_text]
  · cases aborted : report.verdict.aborted with
    | none => simp
    | some reason => simp [h.aborted reason aborted]

/-- What two reports have to agree on for their texts to be the same. -/
structure Agree (report other : Report) : Prop where
  passed : report.verdict.passed = other.verdict.passed
  aborted : report.verdict.aborted = other.verdict.aborted
  judgements : report.verdict.judgements.map (·.passed) = other.verdict.judgements.map (·.passed)
  scenarios : report.scenarios.map report.shown = other.scenarios.map other.shown

theorem verdictWord_inj {report other : Report} (same : report.verdictWord = other.verdictWord) :
    report.verdict.passed = other.verdict.passed := by
  unfold verdictWord Report.passed at same
  cases passed : report.verdict.passed <;> cases passed' : other.verdict.passed <;>
    simp_all

/-- The lines that end the text: the reason of an early stop, if there was one, and the verdict. -/
theorem lastLines_inj {report other : Report}
    (same : (match report.verdict.aborted with
        | none => []
        | some reason => ["aborted: " ++ reason]) ++ ["result: " ++ report.verdictWord] =
      (match other.verdict.aborted with
        | none => []
        | some reason => ["aborted: " ++ reason]) ++ ["result: " ++ other.verdictWord]) :
    report.verdict.aborted = other.verdict.aborted ∧
      report.verdict.passed = other.verdict.passed := by
  obtain ⟨reasons, words⟩ := List.append_inj' same rfl
  refine ⟨?_, verdictWord_inj (String.append_right_inj _ |>.mp (List.cons.inj words).1)⟩
  cases aborted : report.verdict.aborted <;> cases aborted' : other.verdict.aborted <;>
    simp_all [String.append_right_inj]

/-- Reports about the same scenarios and thresholds agree on what is shown if their texts do. -/
theorem agree_of_text {report other : Report} (single : report.SingleLines)
    (single' : other.SingleLines)
    (scenarios : report.scenarios.map (·.scenario) = other.scenarios.map (·.scenario))
    (thresholds : report.verdict.judgements.length = other.verdict.judgements.length)
    (same : report.text = other.text) : Agree report other := by
  have lines := joinLines_inj single.textLines single'.textLines same
  unfold textLines at lines
  simp only [List.append_assoc, List.cons_append, List.nil_append] at lines
  replace lines := (List.cons.inj (List.cons.inj (List.cons.inj lines).2).2).2
  obtain ⟨judgements, lines⟩ := List.append_inj lines (by simp [thresholds])
  replace lines := (List.cons.inj (List.cons.inj lines).2).2
  obtain ⟨figures, lines⟩ := flatMap_scenarioLines_inj scenarios lines
  obtain ⟨aborted, passed⟩ := lastLines_inj lines
  have marks : report.verdict.judgements.map (·.passed) =
      other.verdict.judgements.map (·.passed) := by
    refine List.ext_getElem (by simp [thresholds]) fun i here there => ?_
    rw [List.getElem_map, List.getElem_map]
    have line := congrArg (·[i]?) judgements
    simp only [List.length_map] at here there
    simp only [List.getElem?_map, List.getElem?_eq_getElem here, List.getElem?_eq_getElem there,
      Option.map_some, Option.some.injEq] at line
    exact thresholdLine_inj line
  exact ⟨passed, aborted, marks, figures⟩

end Report

end Cadence
