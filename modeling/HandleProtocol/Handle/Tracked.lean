import HandleProtocol.Implementation
import HandleProtocol.Lifecycle

/-!
The handle that knows its state and keeps to the transition table.

Every operation is looked up in the table before anything is touched.  A refusal
changes nothing and is recorded; an operation that goes through is recorded too,
except for a query of the data, which is silent.
-/

namespace HandleProtocol

structure Tracked where
  state : State
  stored : Payload
  deriving DecidableEq, Repr

namespace Tracked

def new : Tracked := ⟨.initial, .empty⟩

def movement : Operation → State → State → List Event
  | .getData, _, _ => []
  | operation, source, target => [.moved operation source target]

/-- Attempt an operation; if it goes through, the answer is what is then stored. -/
def attempt (operation : Operation) : Call Tracked Refusal Payload := fun handle =>
  match handle.state.transition operation with
  | .ok next =>
      let stored := operation.store handle.stored
      ⟨.ok stored, ⟨next, stored⟩, movement operation handle.state next⟩
  | .error refusal =>
      ⟨.error refusal, handle, [.rejected operation handle.state refusal]⟩

def «open» : Call Tracked Refusal Unit := do let _ ← attempt .open

def read : Call Tracked Refusal Payload := attempt .read

def getData : Call Tracked Refusal Payload := attempt .getData

def close : Call Tracked Refusal Unit := do let _ ← attempt .close

def call (operation : Operation) (handle : Tracked) : Reply Tracked Outcome :=
  dispatch Tracked.open Tracked.read Tracked.getData Tracked.close operation handle

def release (handle : Tracked) : List Event := [.released handle.state]

def inspect (handle : Tracked) : String :=
  "TrackedHandle \x7b state: " ++ handle.state.inspect ++
    ", data: " ++ handle.stored.inspect ++ " \x7d"

theorem attempt_of_ok {operation : Operation} {handle : Tracked} {next : State}
    (h : handle.state.transition operation = .ok next) :
    attempt operation handle =
      ⟨.ok (operation.store handle.stored), ⟨next, operation.store handle.stored⟩,
        movement operation handle.state next⟩ := by
  simp only [attempt, h]

theorem attempt_of_error {operation : Operation} {handle : Tracked} {refusal : Refusal}
    (h : handle.state.transition operation = .error refusal) :
    attempt operation handle =
      ⟨.error refusal, handle, [.rejected operation handle.state refusal]⟩ := by
  simp only [attempt, h]

end Tracked

def Implementation.tracked : Implementation Tracked where
  create := .new
  «open» := Tracked.open
  read := Tracked.read
  getData := Tracked.getData
  close := Tracked.close
  stored := Tracked.stored
  release := Tracked.release

namespace Implementation

@[simp] theorem create_tracked : tracked.create = Tracked.new := rfl

@[simp] theorem stored_tracked (handle : Tracked) : tracked.stored handle = handle.stored := rfl

@[simp] theorem release_tracked (handle : Tracked) :
    tracked.release handle = [.released handle.state] := rfl

theorem plain_tracked : tracked.Plain := rfl

/-- Going through the implementation makes no difference to a tracked handle. -/
theorem perform_tracked (operation : Operation) (handle : Tracked) :
    tracked.perform operation handle = handle.call operation := rfl

end Implementation

namespace Tracked

theorem call_of_ok {operation : Operation} {handle : Tracked} {next : State}
    (h : handle.state.transition operation = .ok next) :
    handle.call operation =
      ⟨.success operation (operation.store handle.stored),
        ⟨next, operation.store handle.stored⟩, movement operation handle.state next⟩ := by
  cases operation <;>
    simp [call, dispatch, Tracked.open, Tracked.read, Tracked.getData, Tracked.close,
      Call.bind_apply, Call.pure_apply, attempt_of_ok h, Reply.map, Outcome.success]

theorem call_of_error {operation : Operation} {handle : Tracked} {refusal : Refusal}
    (h : handle.state.transition operation = .error refusal) :
    handle.call operation =
      ⟨.refused refusal, handle, [.rejected operation handle.state refusal]⟩ := by
  cases operation <;>
    simp [call, dispatch, Tracked.open, Tracked.read, Tracked.getData, Tracked.close,
      Call.bind_apply, attempt_of_error h, Reply.map]

end Tracked

end HandleProtocol
