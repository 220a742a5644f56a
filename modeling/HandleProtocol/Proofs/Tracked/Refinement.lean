import HandleProtocol.Proofs.Typed.Reachable

/-!
# Tracked handles keep to the reference model

However a tracked handle came about, and whether an operation goes to it directly
or through the implementation, each step of a run is the step of the reference
model.  What carries the induction is that the payload is the one that goes with
the state; a refusal, a reopening and an erasure all keep it so.
-/

namespace HandleProtocol

namespace Tracked

/-- The handle holds the payload that goes with its state. -/
def Sound (handle : Tracked) : Prop := handle.stored = Reference.stored handle.state

/-- How a tracked handle begins: fresh, or as a typed handle that was erased. -/
inductive Start : Tracked → Prop
  | fresh : Start .new
  | erased {typed : SomeTyped} : typed.Reachable → Start typed.handle.erase

/-- The way by which an operation gets to a handle. -/
inductive Route where
  | direct
  | implementation
  deriving DecidableEq, Repr

def use (handle : Tracked) : Route → Operation → Reply Tracked Outcome
  | .direct, operation => handle.call operation
  | .implementation, operation => Implementation.tracked.perform operation handle

/-- What is seen of a handle step by step. -/
def observations (handle : Tracked) : List (Route × Operation) → List Reference.Observation
  | [] => []
  | (route, operation) :: rest =>
      let reply := handle.use route operation
      ⟨reply.answer, reply.handle.state, Implementation.tracked.stored reply.handle⟩ ::
        reply.handle.observations rest

/-! ## One step -/

theorem Start.sound {handle : Tracked} (h : handle.Start) : handle.Sound := by
  cases h with
  | fresh => rfl
  | erased hreachable => exact hreachable.stored_eq

theorem use_eq_call (handle : Tracked) (route : Route) (operation : Operation) :
    handle.use route operation = handle.call operation := by
  cases route with
  | direct => rfl
  | implementation => exact Implementation.perform_tracked operation handle

theorem Sound.call {handle : Tracked} (h : handle.Sound) (operation : Operation) :
    let observation := Reference.observe handle.state operation
    (handle.call operation).answer = observation.outcome ∧
      (handle.call operation).handle = ⟨observation.state, observation.stored⟩ := by
  have hstored : handle.stored = Reference.stored handle.state := h
  cases htable : handle.state.transition operation with
  | ok next =>
      rw [call_of_ok htable, Reference.observe_of_ok htable, hstored]
      exact ⟨rfl, rfl⟩
  | error refusal =>
      rw [call_of_error htable, Reference.observe_of_error htable, ← hstored]
      exact ⟨rfl, rfl⟩

theorem Sound.handle_call {handle : Tracked} (h : handle.Sound) (operation : Operation) :
    (handle.call operation).handle.Sound := by
  rw [(h.call operation).2]
  exact (Reference.stored_observe _ _).trans (by rw [Reference.state_observe])

/-! ## Whole runs -/

theorem Sound.handle_run {handle : Tracked} (h : handle.Sound) (operations : List Operation) :
    (Implementation.tracked.run operations handle).handle.Sound := by
  induction operations generalizing handle with
  | nil => exact h
  | cons operation rest ih =>
      rw [Implementation.run_cons, Implementation.perform_tracked]
      exact ih (h.handle_call operation)

theorem Sound.observations_eq {handle : Tracked} (h : handle.Sound)
    (steps : List (Route × Operation)) :
    handle.observations steps = Reference.run handle.state (steps.map Prod.snd) := by
  induction steps generalizing handle with
  | nil => rfl
  | cons step rest ih =>
      obtain ⟨route, operation⟩ := step
      have hanswer := (h.call operation).1
      have hhandle := (h.call operation).2
      rw [List.map_cons, Reference.run, observations, use_eq_call, ih (h.handle_call operation),
        hanswer, hhandle, Implementation.stored_tracked]

/--
Every run of a tracked handle is the run of the reference model.  The states are
those of the table with a refusal staying where it is, the permitted operations
are the accepted ones, and a payload is stored exactly while it is readable.
-/
theorem observations_eq_reference {start : Tracked} (hstart : start.Start)
    (steps : List (Route × Operation)) :
    start.observations steps = Reference.run start.state (steps.map Prod.snd) ∧
      ∀ k route operation, steps[k]? = some (route, operation) →
        let before := start.state.afterAll ((steps.map Prod.snd).take k)
        ∃ seen, (start.observations steps)[k]? = some seen ∧
          seen.state = start.state.afterAll ((steps.map Prod.snd).take (k + 1)) ∧
          (before.permits operation = true ↔ seen.outcome.isRefused = false) ∧
          seen.stored.toInt = if seen.state = .readable then 42 else 0 := by
  have hrun := hstart.sound.observations_eq steps
  refine ⟨hrun, ?_⟩
  intro k route operation hstep
  have hoperation : (steps.map Prod.snd)[k]? = some operation := by
    rw [List.getElem?_map, hstep, Option.map_some]
  refine ⟨Reference.observe (start.state.afterAll ((steps.map Prod.snd).take k)) operation,
    ?_, ?_, ?_, ?_⟩
  · rw [hrun, Reference.getElem?_run, hoperation, Option.map_some]
  · rw [Reference.state_observe, List.take_add_one, hoperation, Option.toList_some,
      State.afterAll_append]
    rfl
  · rw [Reference.permits_eq_not_isRefused]
    simp
  · rw [Reference.stored_observe, Reference.toInt_stored, Reference.state_observe]

/-- A readable typed handle is erased, refuses a second read, and is closed. -/
theorem observations_eq_reference_of_erased :
    let start := (⟨.readable, Typed.new.open.read⟩ : SomeTyped).handle.erase
    let steps : List (Route × Operation) := [(.direct, .read), (.implementation, .close)]
    start.Start ∧ steps[1]? = some (.implementation, .close) ∧
      start.observations steps =
        [⟨.refused (.notPermitted .read .readable), .readable, .sentinel⟩,
          ⟨.done, .closed, .empty⟩] ∧
      ∃ seen, (start.observations steps)[1]? = some seen ∧ seen.state = .closed ∧
        (State.readable.permits .close = true ↔ seen.outcome.isRefused = false) ∧
        seen.stored.toInt = if seen.state = .readable then 42 else 0 := by
  intro start steps
  have hstart : start.Start := .erased SomeTyped.reachable_readable
  obtain ⟨hrun, hsteps⟩ := observations_eq_reference hstart steps
  exact ⟨hstart, rfl, hrun, hsteps 1 .implementation .close rfl⟩

end Tracked

end HandleProtocol
