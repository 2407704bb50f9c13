import Cadence.Proofs.Executor.Trail

/-!
# Iterations of the built-in scenarios

What the bodies of `ping` and `putGet` let happen, whatever the gateway answers and wherever an
iteration breaks off: all that they observe is observed for their own scenario, one check for each
request, and their moves are those of a fixed course, one after another, of which an iteration may
leave the rest undone.
-/

namespace Cadence

/-- All that an outcome holds was observed for one scenario. -/
def Outcome.Observes (name : String) (outcome : Outcome) : Prop :=
  (∀ check ∈ outcome.checks, check.scenario = name) ∧
    ∀ sample ∈ outcome.samples, sample.scenario = name

/-- The requests and the checks of an outcome are about the same replies: there are so many of each,
in the same order, and a request failed exactly if its check did not pass. -/
structure Outcome.Paired (name : String) (count : Nat) (outcome : Outcome) : Prop where
  observes : outcome.Observes name
  requests : outcome.samples.length = count
  verdicts : outcome.samples.map (·.failed) = outcome.checks.map (!·.passed)

/-- Whatever the replies, what an iteration ends with meets a demand. -/
def Body.Ensures (demand : Outcome → Prop) : Body → Prop
  | .done outcome => demand outcome
  | .broken => True
  | .pause _ next => next.Ensures demand
  | .ask _ next => ∀ reply, (next reply).Ensures demand

namespace Phase

def Ensures (demand : Outcome → Prop) : Phase → Prop
  | .fresh => True
  | .running body => body.Ensures demand
  | .settling outcome => demand outcome

def Progress.Ensures (demand : Outcome → Prop) : Progress → Prop
  | .goesOn phase => phase.Ensures demand
  | .ends outcome => ∀ made ∈ outcome, demand made

variable {demand : Outcome → Prop}

theorem Progress.ensures_ofBody {body : Body} (h : body.Ensures demand) (settle : Duration) :
    (Progress.ofBody settle body).Ensures demand := by
  cases body with
  | done outcome =>
    unfold ofBody
    dsimp only
    split
    · intro made same
      cases same
      exact h
    · exact h
  | broken =>
    intro made same
    cases same
  | pause time next => exact h
  | ask request next => exact h

/-- However an iteration goes on, what it ends with meets the demand. -/
theorem ensures_step {scenario : Scenario} {context : IterationContext}
    (own : ∀ millis, (scenario.body context millis).Ensures demand) {phase : Phase}
    (h : phase.Ensures demand) {stimulus : Stimulus} {progress : Progress}
    (step : phase.step? scenario context stimulus = some progress) : progress.Ensures demand := by
  unfold step? at step
  split at step
  next millis =>
    cases step
    exact Progress.ensures_ofBody (own millis) scenario.settle
  next request next reply =>
    cases step
    exact Progress.ensures_ofBody (h reply) scenario.settle
  next time next =>
    cases step
    exact Progress.ensures_ofBody (show next.Ensures demand from h) scenario.settle
  next outcome =>
    cases step
    intro made same
    cases same
    exact h
  next =>
    cases step
    intro made same
    cases same
  next =>
    cases step
    intro made same
    cases same
  next => cases step

end Phase

/-- What a trail comes to meets the demand that its scenario ensures. -/
theorem Trail.ensures {scenario : Scenario} {context : IterationContext} {demand : Outcome → Prop}
    (own : ∀ millis, (scenario.body context millis).Ensures demand) {phase : Phase}
    {moves : List (Stimulus × Option Request)} {progress : Phase.Progress}
    (trail : Trail scenario context phase moves progress) (h : phase.Ensures demand) :
    progress.Ensures demand := by
  induction trail with
  | here phase => exact h
  | ends step => exact Phase.ensures_step own h step
  | goesOn step _ ih => exact ih (Phase.ensures_step own h step)

/-- The moves follow a course as far as they go; the last one may be that the iteration breaks
off. -/
def FollowsCourse (course moves : List (Stimulus × Option Request)) : Prop :=
  moves <+: course ∨ ∃ done, done <+: course ∧ moves = done ++ [(.breakOff, none)]

theorem followsCourse_nil (course : List (Stimulus × Option Request)) :
    FollowsCourse course [] := Or.inl (List.nil_prefix)

theorem followsCourse_breakOff (course : List (Stimulus × Option Request)) :
    FollowsCourse course [(.breakOff, none)] := Or.inr ⟨[], List.nil_prefix, rfl⟩

theorem FollowsCourse.cons {course moves : List (Stimulus × Option Request)}
    (h : FollowsCourse course moves) (move : Stimulus × Option Request) :
    FollowsCourse (move :: course) (move :: moves) := by
  rcases h with h | ⟨done, h, rfl⟩
  · exact Or.inl ((List.prefix_cons_inj move).mpr h)
  · exact Or.inr ⟨move :: done, (List.prefix_cons_inj move).mpr h, rfl⟩

/-- What is asked for is what the course asks for, as far as the moves go. -/
theorem FollowsCourse.requests {course moves : List (Stimulus × Option Request)}
    (h : FollowsCourse course moves) : moves.filterMap (·.2) <+: course.filterMap (·.2) := by
  rcases h with h | ⟨done, h, rfl⟩
  · exact h.filterMap _
  · simpa using h.filterMap (·.2)

instance : Inhabited Reply := ⟨.lost "" .zero⟩

namespace Scenario

/-- The moves of an iteration that probes the gateway. -/
def pingCourse (millis : Int) (reply : Reply) : List (Stimulus × Option Request) :=
  [(.begin millis, some .ping), (.answer reply, none), (.wake, none)]

/-- The moves of an iteration that writes a key and reads it back: the read is made as soon as the
write has been answered, whatever the answer. -/
def putGetCourse (key value : String) (ttl : Duration) (millis : Int) (written answered : Reply) :
    List (Stimulus × Option Request) :=
  [(.begin millis, some (.put key value ttl)), (.answer written, some (.get key)),
    (.answer answered, none), (.wake, none)]

section Moves

variable {scenario : Scenario} {context : IterationContext} {phase : Phase}
  {moves : List (Stimulus × Option Request)} {progress : Phase.Progress}

/-- A settling iteration waits for the time to pass, and for nothing else. -/
theorem moves_settling {outcome : Outcome}
    (trail : Trail scenario context (.settling outcome) moves progress) :
    moves <+: [(.wake, none)] := by
  cases trail with
  | here => exact List.nil_prefix
  | @ends _ stimulus _ step =>
    cases stimulus <;> cases step
    exact List.prefix_refl _
  | @goesOn _ next stimulus rest _ step trail => cases stimulus <;> cases step

/-- An iteration that waits for a reply goes on with the reply, or breaks off. -/
theorem moves_ask {request : Request} {next : Reply → Body}
    (trail : Trail scenario context (.running (.ask request next)) moves progress) :
    moves = [] ∨ moves = [(.breakOff, none)] ∨ ∃ reply : Reply,
      (∃ outcome, Phase.Progress.ofBody scenario.settle (next reply) = .ends outcome ∧
        moves = [(.answer reply, none)]) ∨
      ∃ later rest, Phase.Progress.ofBody scenario.settle (next reply) = .goesOn later ∧
        moves = (.answer reply, later.request?) :: rest ∧
        Trail scenario context later rest progress := by
  cases trail with
  | here => exact Or.inl rfl
  | @ends _ stimulus outcome step =>
    cases stimulus with
    | answer reply => exact Or.inr (Or.inr ⟨reply, Or.inl ⟨outcome, Option.some.inj step, rfl⟩⟩)
    | breakOff => exact Or.inr (Or.inl rfl)
    | begin millis => cases step
    | wake => cases step
  | @goesOn _ later stimulus rest _ step trail =>
    cases stimulus with
    | answer reply =>
      exact Or.inr (Or.inr ⟨reply, Or.inr ⟨later, rest, Option.some.inj step, rfl, trail⟩⟩)
    | breakOff => cases step
    | begin millis => cases step
    | wake => cases step

/-- The last reply ends an iteration or lets it settle. -/
theorem moves_lastAsk {request : Request} {observed : Reply → Outcome}
    (trail : Trail scenario context (.running (.ask request fun reply => .done (observed reply)))
      moves progress) :
    ∃ reply : Reply, FollowsCourse [(.answer reply, none), (.wake, none)] moves := by
  rcases moves_ask trail with rfl | rfl | ⟨reply, ⟨outcome, -, rfl⟩ |
    ⟨later, rest, next, rfl, onward⟩⟩
  · exact ⟨default, followsCourse_nil _⟩
  · exact ⟨default, followsCourse_breakOff _⟩
  · exact ⟨reply, (followsCourse_nil _).cons _⟩
  · refine ⟨reply, ?_⟩
    unfold Phase.Progress.ofBody at next
    dsimp only at next
    split at next
    · cases next
    · cases next
      exact FollowsCourse.cons (Or.inl (moves_settling onward)) _

/-- An iteration begins, or breaks off before it has. -/
theorem moves_fresh {request : Int → Request} {next : Int → Reply → Body}
    (body : ∀ millis, scenario.body context millis = .ask (request millis) (next millis))
    (trail : Trail scenario context .fresh moves progress) :
    moves = [] ∨ moves = [(.breakOff, none)] ∨ ∃ millis rest,
      moves = (.begin millis, some (request millis)) :: rest ∧
      Trail scenario context (.running (.ask (request millis) (next millis))) rest progress := by
  cases trail with
  | here => exact Or.inl rfl
  | @ends _ stimulus outcome step =>
    cases stimulus with
    | begin millis =>
      simp only [Phase.step?, body, Phase.Progress.ofBody] at step
      cases step
    | breakOff => exact Or.inr (Or.inl rfl)
    | answer reply => cases step
    | wake => cases step
  | @goesOn _ later stimulus rest _ step trail =>
    cases stimulus with
    | begin millis =>
      simp only [Phase.step?, body, Phase.Progress.ofBody] at step
      cases step
      exact Or.inr (Or.inr ⟨millis, rest, rfl, trail⟩)
    | breakOff => cases step
    | answer reply => cases step
    | wake => cases step

/-- What an iteration of `ping` does. -/
theorem moves_ping {settle : Duration}
    (trail : Trail (ping settle) context .fresh moves progress) :
    ∃ millis reply, FollowsCourse (pingCourse millis reply) moves := by
  rcases moves_fresh (fun _ => rfl) trail with rfl | rfl | ⟨millis, rest, rfl, onward⟩
  · exact ⟨0, default, followsCourse_nil _⟩
  · exact ⟨0, default, followsCourse_breakOff _⟩
  · obtain ⟨reply, follows⟩ := moves_lastAsk onward
    exact ⟨millis, reply, follows.cons _⟩

/-- What an iteration of `putGet` does. The moment at which it begins is part of its key. -/
theorem moves_putGet {stem value : String} {ttl settle : Duration}
    (trail : Trail (putGet stem value ttl settle) context .fresh moves progress) :
    ∃ millis written answered,
      FollowsCourse (putGetCourse (context.key stem millis) value ttl millis written answered)
        moves := by
  rcases moves_fresh (fun _ => rfl) trail with rfl | rfl | ⟨millis, rest, rfl, onward⟩
  · exact ⟨0, default, default, followsCourse_nil _⟩
  · exact ⟨0, default, default, followsCourse_breakOff _⟩
  · rcases moves_ask onward with rfl | rfl | ⟨written, ⟨outcome, next, -⟩ |
      ⟨later, rest, next, rfl, further⟩⟩
    · exact ⟨millis, default, default, (followsCourse_nil _).cons _⟩
    · exact ⟨millis, default, default, (followsCourse_breakOff _).cons _⟩
    · cases next
    · cases next
      obtain ⟨answered, follows⟩ := moves_lastAsk further
      exact ⟨millis, written, answered, (follows.cons _).cons _⟩

end Moves

/-- An iteration of `ping` makes one request and checks its reply. -/
theorem ping_paired (settle : Duration) (context : IterationContext) (millis : Int) :
    ((ping settle).body context millis).Ensures (Outcome.Paired context.scenario 1) := by
  intro reply
  refine ⟨?_, rfl, ?_⟩
  · constructor <;> simp [IterationContext.check, IterationContext.sample]
  · simp [IterationContext.check, IterationContext.sample]

/-- An iteration of `putGet` makes two requests and checks both replies. -/
theorem putGet_paired (stem value : String) (ttl settle : Duration) (context : IterationContext)
    (millis : Int) :
    ((putGet stem value ttl settle).body context millis).Ensures
      (Outcome.Paired context.scenario 2) := by
  intro written answered
  refine ⟨?_, rfl, ?_⟩
  · constructor <;> simp [IterationContext.check, IterationContext.sample]
  · simp [IterationContext.check, IterationContext.sample]

/-- The scenarios that can be configured. -/
def BuiltIn (config : RunConfig) (scenario : Scenario) : Prop :=
  scenario = ping config.settle ∨
    scenario = putGet config.keyPrefix config.value config.ttl config.settle

/-- Every outcome of a built-in scenario pairs its requests with its checks. -/
theorem BuiltIn.paired {config : RunConfig} {scenario : Scenario} (h : BuiltIn config scenario)
    {outcome : Outcome} (yields : scenario.Yields (some outcome)) :
    scenario.name = pingName ∧ outcome.Paired scenario.name 1 ∨
      scenario.name = putGetName ∧ outcome.Paired scenario.name 2 := by
  obtain ⟨slot, serial, moves, trail⟩ := yields
  rcases h with rfl | rfl
  · exact Or.inl ⟨rfl, trail.ensures (ping_paired _ _) trivial outcome rfl⟩
  · exact Or.inr ⟨rfl, trail.ensures (putGet_paired _ _ _ _ _) trivial outcome rfl⟩

/-- An outcome of a built-in scenario holds nothing that was observed for another one. -/
theorem BuiltIn.observes {config : RunConfig} {scenario : Scenario} (h : BuiltIn config scenario)
    {outcome : Outcome} (yields : scenario.Yields (some outcome)) :
    outcome.Observes scenario.name :=
  (h.paired yields).elim (·.2.observes) (·.2.observes)

end Scenario

end Cadence
