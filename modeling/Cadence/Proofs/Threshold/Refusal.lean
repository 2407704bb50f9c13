import Cadence.Proofs.Threshold

/-!
# How refused thresholds are quoted

A threshold is refused because one of its texts cannot be read, or because its metric does not have
the aggregation. The first kind of refusal quotes the texts as they were written. The second quotes
what has been read as it is printed, which may be spelt differently: without blanks, and with the
numbers in their shortest form. What is quoted is always refused for the same cause.
-/

namespace Cadence

/-- The texts of a threshold that a fault quotes. -/
def Fault.quoted? : Fault → Option (String × String)
  | .threshold selector predicate _ => some (selector, predicate)
  | _ => none

namespace Threshold

/-- Why two texts are no threshold, and the fault that says so. -/
inductive Refused (s t : String) : Fault → Prop
  | selector {cause : SelectorFault} (unread : Selector.parse s = .error cause) :
      Refused s t (.threshold s t (.selector cause))
  | predicate {selector : Selector} {cause : PredicateFault}
      (read : Selector.parse s = .ok selector) (unread : Predicate.parse t = .error cause) :
      Refused s t (.threshold s t (.predicate cause))
  | unavailable {selector : Selector} {predicate : Predicate}
      (read : Selector.parse s = .ok selector) (read' : Predicate.parse t = .ok predicate)
      (missing : selector.metric.supports predicate.aggregation = false) :
      Refused s t (.threshold selector.text predicate.text
        (.unavailable predicate.aggregation selector.metric))

/-- Two texts that are spelt as what they say is printed, as far as both can be read. -/
def Printed (s t : String) : Prop :=
  ∀ selector predicate, Selector.parse s = .ok selector → Predicate.parse t = .ok predicate →
    s = selector.text ∧ t = predicate.text

section Refuse

variable {s t : String} {fault : Fault}

theorem ofParts_of_not_supports {selector : Selector} {predicate : Predicate}
    (missing : selector.metric.supports predicate.aggregation = false) :
    ofParts selector predicate = .error (.threshold selector.text predicate.text
      (.unavailable predicate.aggregation selector.metric)) :=
  if_neg (by simp [missing])

theorem parse_eq_error_iff : parse s t = .error fault ↔ Refused s t fault := by
  constructor
  · intro h
    unfold parse at h
    cases read : Selector.parse s with
    | error cause =>
      simp only [read, Except.error.injEq] at h
      exact h ▸ .selector read
    | ok selector =>
      cases read' : Predicate.parse t with
      | error cause =>
        simp only [read, read', Except.error.injEq] at h
        exact h ▸ .predicate read read'
      | ok predicate =>
        simp only [read, read'] at h
        cases missing : selector.metric.supports predicate.aggregation with
        | false =>
          rw [ofParts_of_not_supports missing] at h
          exact Except.error.inj h ▸ .unavailable read read' missing
        | true =>
          rw [ofParts, if_pos missing] at h
          cases h
  · intro refused
    cases refused with
    | selector unread => simp only [parse, unread]
    | predicate read unread => simp only [parse, read, unread]
    | unavailable read read' missing =>
      simp only [parse, read, read', ofParts_of_not_supports missing]

/-- What a refusal quotes is refused for the same cause. -/
theorem Refused.quoted (refused : Refused s t fault) :
    ∃ s' t' cause, fault = .threshold s' t' cause ∧ Refused s' t' fault := by
  cases refused with
  | selector unread => exact ⟨s, t, _, rfl, .selector unread⟩
  | predicate read unread => exact ⟨s, t, _, rfl, .predicate read unread⟩
  | @unavailable selector predicate read read' missing =>
    exact ⟨selector.text, predicate.text, _, rfl,
      .unavailable (Selector.parse_text (Selector.kept_of_parse read))
        (Predicate.parse_text (Predicate.readable_of_parse read')) missing⟩

/-- The texts are quoted as they were written if one of them cannot be read, and else if both are
spelt as they are printed. -/
theorem Refused.quoted_eq_iff (refused : Refused s t fault) :
    fault.quoted? = some (s, t) ↔ Printed s t := by
  cases refused with
  | selector unread =>
    refine iff_of_true rfl fun selector predicate read => ?_
    rw [unread] at read
    cases read
  | predicate read unread =>
    refine iff_of_true rfl fun selector predicate _ read' => ?_
    rw [unread] at read'
    cases read'
  | @unavailable selector predicate read read' missing =>
    constructor
    · intro same other other' reads reads'
      cases read.symm.trans reads
      cases read'.symm.trans reads'
      cases same
      exact ⟨rfl, rfl⟩
    · intro printed
      obtain ⟨spelt, spelt'⟩ := printed selector predicate read read'
      rw [Fault.quoted?, ← spelt, ← spelt']

end Refuse

/-- A refusal of two texts quotes them as they were written exactly if one of them cannot be read or
both are spelt as they would be printed. In every case it quotes a threshold that is refused with
the same fault, and its message has what is quoted between backquotes. -/
theorem refusal_quotes_printed (s t : String) (fault : Fault) (refused : parse s t = .error fault) :
    (fault.quoted? = some (s, t) ↔ Printed s t) ∧
      ∃ s' t' cause, fault = .threshold s' t' cause ∧ parse s' t' = .error fault ∧
        fault.message = "invalid threshold `" ++ s' ++ ": " ++ t' ++ "`: " ++ cause.message := by
  have refused := parse_eq_error_iff.mp refused
  obtain ⟨s', t', cause, quoted, again⟩ := refused.quoted
  exact ⟨refused.quoted_eq_iff, s', t', cause, quoted, parse_eq_error_iff.mpr again,
    by rw [quoted]; rfl⟩

/-- The fault of a text that is no threshold. -/
def fault? (s t : String) : Option Fault :=
  match parse s t with
  | .error fault => some fault
  | .ok _ => none

theorem parse_of_fault? {s t : String} {fault : Fault} (h : fault? s t = some fault) :
    parse s t = .error fault := by
  unfold fault? at h
  split at h
  next refused => exact Option.some.inj h ▸ refused
  next => cases h

/-- A threshold that is written with blanks and a zero too many is quoted without them. -/
theorem parse_respelt : ∃ fault, parse "http_req_duration" "rate < 0.10" = .error fault ∧
    fault.quoted? = some ("http_req_duration", "rate<0.1") ∧
    fault.message = "invalid threshold `http_req_duration: rate<0.1`: " ++
      "aggregation `rate` is not available for metric `http_req_duration`" := by
  have computed : (fault? "http_req_duration" "rate < 0.10").map
      (fun fault => (fault.quoted?, fault.message)) =
        some (some ("http_req_duration", "rate<0.1"),
          "invalid threshold `http_req_duration: rate<0.1`: " ++
            "aggregation `rate` is not available for metric `http_req_duration`") := by
    decide +kernel
  obtain ⟨fault, refused, told⟩ := Option.map_eq_some_iff.mp computed
  obtain ⟨quoted, message⟩ := Prod.mk.inj told
  exact ⟨fault, parse_of_fault? refused, quoted, message⟩

/-- Not every refusal quotes the texts as they were written. -/
theorem refusal_respelt : ∃ fault, parse "http_req_duration" "rate < 0.10" = .error fault ∧
    fault.quoted? ≠ some ("http_req_duration", "rate < 0.10") := by
  obtain ⟨fault, refused, quoted, -⟩ := parse_respelt
  exact ⟨fault, refused, by rw [quoted]; decide⟩

/-- The predicate is not spelt as it is printed. The line that is quoted instead is refused with the
same fault. -/
theorem refusal_quotes_printed_rate : ∃ fault,
    parse "http_req_duration" "rate < 0.10" = .error fault ∧
      ¬Printed "http_req_duration" "rate < 0.10" ∧
      parse "http_req_duration" "rate<0.1" = .error fault := by
  obtain ⟨fault, refused, quoted, -⟩ := parse_respelt
  obtain ⟨written, s', t', cause, shown, again, -⟩ := refusal_quotes_printed _ _ fault refused
  refine ⟨fault, refused, fun printed => ?_, ?_⟩
  · exact absurd (quoted.symm.trans (written.mpr printed)) (by decide)
  · rw [shown] at quoted
    cases quoted
    exact again

end Threshold

end Cadence
