import HandleProtocol.Refusal

/-!
The transition table of the lifecycle.

A handle goes from closed to open, from open to readable, and back to closed by
a close; its data can be asked for while it is readable.  All else is refused,
and a refusal leaves the state as it was.
-/

namespace HandleProtocol

namespace State

def transition : State → Operation → Except Refusal State
  | .closed, .open => .ok .open
  | .open, .read => .ok .readable
  | .readable, .getData => .ok .readable
  | .open, .close => .ok .closed
  | .readable, .close => .ok .closed
  | .closed, .close => .error .alreadyClosed
  | state, operation => .error (.notPermitted operation state)

def permits (state : State) (operation : Operation) : Bool :=
  match state.transition operation with
  | .ok _ => true
  | .error _ => false

def permitted (state : State) : List Operation :=
  Operation.all.filter state.permits

/-- The state after an operation was attempted: a refusal stays. -/
def after (state : State) (operation : Operation) : State :=
  match state.transition operation with
  | .ok next => next
  | .error _ => state

def afterAll (state : State) (operations : List Operation) : State :=
  operations.foldl after state

@[simp] theorem permits_eq_true_iff {state : State} {operation : Operation} :
    state.permits operation = true ↔ ∃ next, state.transition operation = .ok next := by
  unfold permits
  split <;> simp [*]

@[simp] theorem afterAll_nil (state : State) : state.afterAll [] = state := rfl

@[simp] theorem afterAll_cons (state : State) (operation : Operation)
    (rest : List Operation) :
    state.afterAll (operation :: rest) = (state.after operation).afterAll rest := rfl

theorem afterAll_append (state : State) (first second : List Operation) :
    state.afterAll (first ++ second) = (state.afterAll first).afterAll second :=
  List.foldl_append

end State

/-! ## Walking the table -/

structure Attempt where
  permitted : Bool
  answer : Except Refusal State
  state : State

def State.walk (state : State) : List Operation → List Attempt
  | [] => []
  | operation :: rest =>
      ⟨state.permits operation, state.transition operation, state.after operation⟩ ::
        (state.after operation).walk rest

end HandleProtocol
