import Cadence.Proofs.Executor.Overload
import Cadence.Proofs.Run.Books

/-!
# Overload is noticed

Whether a run drops arrivals tells whether its workers keep up. They do if each iteration is joined
before as many ticks have passed as there are workers; they do not if as many iterations as there
are workers are in flight when the next tick comes. A dropped arrival stands in both accounts.
-/

namespace Cadence

namespace Executor

variable {plan : Plan} {executor : Executor} {deeds : List Deed}

/-- Where nothing has been dropped, the counter says so. -/
theorem Balanced.dropped_eq_zero (h : Balanced plan executor deeds)
    (ticks : executor.ticks = (arrivals deeds).length) (none : .dropped ∉ deeds) :
    executor.counters.dropped = 0 := by
  have all := h.ticks
  rw [ticks, arrivals_eq_of_not_dropped none, List.length_map, h.dispatched] at all
  omega

end Executor

namespace Run

/-- A dropped arrival is counted by its executor and written into the ledger. -/
theorem apply_dropped {run : Run} {lane : Nat} {executor : Executor}
    (found : run.executors[lane]? = some executor)
    (dropped : executor.deed? .tick = some .dropped) :
    (run.apply (.step lane .tick)).executors[lane]?.map (·.counters) =
      some { executor.counters with dropped := executor.counters.dropped + 1 } ∧
    (run.apply (.step lane .tick)).ledger =
      run.ledger.add (.dropped executor.plan.scenario.name) := by
  obtain ⟨-, dispatching, full⟩ := Executor.full_of_dropped dropped
  refine ⟨?_, ?_⟩
  · rw [executors_apply, found]
    simp [laneEvent?, Executor.applyAll, Executor.apply, Executor.perform, dispatching,
      Executor.arrive, full]
  · have noted : run.noted Executor.eventDeed? (.step lane .tick) = some (lane, .dropped) := by
      simp [noted, found, Executor.eventDeed?, dropped]
    rw [ledger_apply, noted]
    simp [record?, found, Deed.record?]

/-- A run notices when the workers of a scenario do not keep up, and only then. No arrival is
dropped as long as no iteration breaks off and each of them is joined before as many ticks have
passed as there are workers. If as many ticks in a row as there are workers have each started an
iteration and none of these has been joined, the next tick is dropped, and both accounts say so. And
whenever an arrival is dropped, all slots are in flight but those lost to iterations that broke
off. -/
theorem overload_noticed {plans : List Plan} {lane : Nat} {plan : Plan}
    (planned : plans[lane]? = some plan) (thresholds : List Threshold) (cell : StopCell)
    (events : List RunEvent) :
    let begun := start plans thresholds cell
    let run := begun.applyAll events
    let deeds := ofLane lane (begun.deeds events)
    ∃ executor, run.executors[lane]? = some executor ∧
      executor.ticks = (arrivals deeds).length ∧
      (0 < plan.workers → losses deeds = [] → Punctual plan.workers deeds →
        .dropped ∉ deeds ∧ executor.counters.dropped = 0) ∧
      (executor.stage = .dispatching → ∀ tick,
        (arrivals deeds).length = tick + plan.workers →
        (∀ offset < plan.workers, ∃ slot,
          (arrivals deeds)[tick + offset]? = some (.started slot) ∧ slot ∉ joins deeds) →
        let next := run.apply (.step lane .tick)
        let name := plan.scenario.name
        executor.deed? .tick = some .dropped ∧
        next.executors[lane]?.map (·.counters) =
          some { executor.counters with dropped := executor.counters.dropped + 1 } ∧
        next.ledger = run.ledger.add (.dropped name) ∧
        next.ledger.dropped (some name) = run.ledger.dropped (some name) + 1) ∧
      ∀ choice, executor.deed? choice = some .dropped →
        executor.inFlight + (losses deeds).length = plan.workers := by
  intro begun run deeds
  obtain ⟨own, found, noted⟩ := lane_of_planned planned thresholds cell events
  have same : deeds = (Executor.subscribe plan cell).deeds own := noted Executor.eventDeed?
  rw [same]
  have ticks := Executor.ticks_eq_length_arrivals plan cell own
  refine ⟨_, found, ticks, fun someWorker whole punctual => ?_, ?_, ?_⟩
  · have none := (Executor.inTurn_of_punctual someWorker whole punctual).none
    exact ⟨none, (Executor.balanced_applyAll plan cell own).dropped_eq_zero ticks none⟩
  · intro dispatching tick count row next name
    have dropped := Executor.dropped_of_unjoined dispatching count row
    obtain ⟨counted, written⟩ := apply_dropped found dropped
    have written : next.ledger = run.ledger.add (.dropped name) := by
      rw [Executor.plan_applyAll] at written
      exact written
    refine ⟨dropped, counted, written, ?_⟩
    have total := twin_dropped.total_record run.ledger (some name) name (some .dropped)
    rw [written]
    simpa [Ledger.dropped, Ledger.inScope, Deed.record?, Deed.item?, Item.drops] using total
  · exact fun choice => Executor.inFlight_of_dropped

/-- Two workers. Each joins its first iteration before the other has started two more, and takes the
slot again; with both of these in flight the fifth tick is dropped. -/
theorem overload_noticed_two_workers :
    let plans : List Plan := [⟨⟨"still", .zero, fun _ _ => .done ⟨[], []⟩⟩, 2, .ofMillis 500, 2, 0⟩]
    let events : List RunEvent := [.step 0 .enter, .step 0 .tick, .step 0 .tick,
      .task 0 0 (.begin 0), .step 0 (.join 0), .step 0 .tick,
      .task 0 1 (.begin 0), .step 0 (.join 1), .step 0 .tick]
    let run := (start plans [] (.initial none)).applyAll events
    plans[0]?.map (·.workers) = some 2 ∧
      run.executors[0]?.map (·.counters) = some ⟨4, 2, 0, 0⟩ ∧
      run.executors[0]?.map (·.inFlight) = some 2 ∧
      (run.apply (.step 0 .tick)).executors[0]?.map (·.counters.dropped) = some 1 ∧
      (run.apply (.step 0 .tick)).ledger.dropped (some "still") =
        run.ledger.dropped (some "still") + 1 := by
  intro plans events run
  obtain ⟨executor, found, -, kept, lost, full⟩ :=
    overload_noticed (show plans[0]? = some _ from rfl) [] (.initial none) events
  have deeds : ofLane 0 ((start plans [] (.initial none)).deeds events) =
      [.started ⟨0, 0⟩, .started ⟨1, 0⟩, .completed ⟨0, 0⟩ ⟨[], []⟩, .started ⟨0, 1⟩,
        .completed ⟨1, 0⟩ ⟨[], []⟩, .started ⟨1, 1⟩] := by
    decide +kernel
  rw [deeds] at kept lost full
  have none := (kept Nat.two_pos rfl (by decide)).2
  have dispatching : executor.stage = .dispatching := by
    have stage : run.executors[0]?.map (·.stage) = some .dispatching := by decide +kernel
    simpa [run, found] using stage
  obtain ⟨dropped, counted, -, written⟩ := lost dispatching 2 rfl fun offset inside => by
    interval_cases offset
    · exact ⟨⟨0, 1⟩, rfl, by decide⟩
    · exact ⟨⟨1, 1⟩, rfl, by decide⟩
  refine ⟨rfl, by decide +kernel, ?_, ?_, written⟩
  · rw [found, Option.map_some]
    exact congrArg some (full .tick dropped)
  · have counted := congrArg (Option.map (·.dropped)) counted
    rw [Option.map_map, Option.map_some, none] at counted
    exact counted

end Run

end Cadence
