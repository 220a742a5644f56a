import HandleProtocol.Lifecycle
import HandleProtocol.Outcome

/-!
# The reference model

A second account of the lifecycle, written out case by case: what an operation
comes to in each state, the state that it leaves, and the payload that goes with
a state.  Neither `State.transition` nor `Operation.store` is consulted; the
lemmas below compare the two accounts, and the proofs about handles use nothing
else of either.
-/

namespace HandleProtocol

namespace Reference

def step : State → Operation → Outcome × State
  | .closed, .open => (.done, .open)
  | .closed, .close => (.refused .alreadyClosed, .closed)
  | .open, .read => (.data .sentinel, .readable)
  | .open, .close => (.done, .closed)
  | .readable, .close => (.done, .closed)
  | .readable, .getData => (.data .sentinel, .readable)
  | state, operation => (.refused (.notPermitted operation state), state)

/-- The payload that goes with a state. -/
def stored : State → Payload
  | .closed => .empty
  | .open => .empty
  | .readable => .sentinel

/-- What is seen of one step: its outcome, and the handle afterwards. -/
structure Observation where
  outcome : Outcome
  state : State
  stored : Payload
  deriving DecidableEq, Repr

def observe (state : State) (operation : Operation) : Observation :=
  let (outcome, next) := step state operation
  ⟨outcome, next, stored next⟩

def run : State → List Operation → List Observation
  | _, [] => []
  | state, operation :: rest =>
      let observation := observe state operation
      observation :: run observation.state rest

/-! ## The reference model and the transition table -/

theorem observe_of_ok {state next : State} {operation : Operation}
    (h : state.transition operation = .ok next) :
    observe state operation =
      ⟨.success operation (operation.store (stored state)), next,
        operation.store (stored state)⟩ := by
  cases state <;> cases operation <;> cases h <;> rfl

theorem observe_of_error {state : State} {operation : Operation} {refusal : Refusal}
    (h : state.transition operation = .error refusal) :
    observe state operation = ⟨.refused refusal, state, stored state⟩ := by
  cases state <;> cases operation <;> cases h <;> rfl

@[simp] theorem state_observe (state : State) (operation : Operation) :
    (observe state operation).state = state.after operation := by
  unfold State.after
  cases h : state.transition operation with
  | ok next => rw [observe_of_ok h]
  | error refusal => rw [observe_of_error h]

theorem permits_eq_not_isRefused (state : State) (operation : Operation) :
    state.permits operation = !(observe state operation).outcome.isRefused := by
  unfold State.permits
  cases h : state.transition operation with
  | ok next =>
      rw [observe_of_ok h]
      cases operation <;> rfl
  | error refusal =>
      rw [observe_of_error h]
      rfl

theorem stored_observe (state : State) (operation : Operation) :
    (observe state operation).stored = stored (state.after operation) := by
  rw [← state_observe]
  rfl

theorem toInt_stored (state : State) :
    (stored state).toInt = if state = .readable then 42 else 0 := by
  cases state <;> rfl

/-- The reference model at a position: the operation there is observed in the
state to which the table takes the operations before it. -/
theorem getElem?_run (state : State) (operations : List Operation) (k : Nat) :
    (run state operations)[k]? =
      operations[k]?.map (observe (state.afterAll (operations.take k))) := by
  induction operations generalizing state k with
  | nil => simp [run]
  | cons operation rest ih =>
      rw [run]
      cases k with
      | zero => simp
      | succ k =>
          simp only [List.getElem?_cons_succ, List.take_succ_cons, State.afterAll_cons]
          rw [ih, state_observe]

end Reference

end HandleProtocol
