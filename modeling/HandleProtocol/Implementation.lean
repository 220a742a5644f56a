import HandleProtocol.Call
import HandleProtocol.Outcome

/-!
What a handle has to provide, and how it is driven.

An implementation is a record of calls over its own type of handles, and nothing
is asked of these calls: they may refuse what the transition table permits,
permit what it refuses, and answer anything.  It may also have a way of its own to
carry out an operation that is given as a value; a plain one makes the call that is
meant.  Every way of driving a handle is written once, over such a record.
-/

namespace HandleProtocol

/-- Carry out an operation by the call that is meant. -/
def dispatch {σ : Type} («open» : Call σ Refusal Unit) (read getData : Call σ Refusal Payload)
    (close : Call σ Refusal Unit) (operation : Operation) (handle : σ) : Reply σ Outcome :=
  match operation with
  | .open => («open» handle).map .ofDone
  | .read => (read handle).map .ofData
  | .getData => (getData handle).map .ofData
  | .close => (close handle).map .ofDone

structure Implementation (σ : Type) where
  create : σ
  «open» : Call σ Refusal Unit
  read : Call σ Refusal Payload
  getData : Call σ Refusal Payload
  close : Call σ Refusal Unit
  /-- The payload held inside, whatever the state. -/
  stored : σ → Payload
  /-- The events raised when the handle's life ends. -/
  release : σ → List Event
  perform : Operation → σ → Reply σ Outcome := dispatch «open» read getData close

structure Step where
  operation : Operation
  outcome : Outcome
  deriving DecidableEq, Repr

def Step.inspect (step : Step) : String :=
  "Step \x7b operation: " ++ step.operation.inspect ++
    ", outcome: " ++ step.outcome.inspect ++ " \x7d"

namespace Implementation

variable {σ α : Type}

/-- The implementation has no way of its own to carry out an operation. -/
def Plain (impl : Implementation σ) : Prop :=
  impl.perform = dispatch impl.open impl.read impl.getData impl.close

/-- Carry out a list of operations, going on after a refusal. -/
def run (impl : Implementation σ) : List Operation → σ → Reply σ (List Step)
  | [], handle => ⟨[], handle, []⟩
  | operation :: rest, handle =>
      let first := impl.perform operation handle
      let later := impl.run rest first.handle
      ⟨⟨operation, first.answer⟩ :: later.answer, later.handle, first.events ++ later.events⟩

/--
A whole life: create a handle, use it, release it, whatever came of the use.
The handle of the reply is the one that was released.
-/
def live (impl : Implementation σ) (use : σ → Reply σ α) : Reply σ α :=
  let used := use impl.create
  ⟨used.answer, used.handle, used.events ++ impl.release used.handle⟩

def runLife (impl : Implementation σ) (operations : List Operation) :
    Reply σ (List Step) :=
  impl.live (impl.run operations)

/-! ## Lemmas -/

@[simp] theorem run_nil (impl : Implementation σ) (handle : σ) :
    impl.run [] handle = ⟨[], handle, []⟩ := rfl

theorem run_cons (impl : Implementation σ) (operation : Operation)
    (rest : List Operation) (handle : σ) :
    impl.run (operation :: rest) handle =
      let first := impl.perform operation handle
      let later := impl.run rest first.handle
      ⟨⟨operation, first.answer⟩ :: later.answer, later.handle,
        first.events ++ later.events⟩ := rfl

theorem run_append (impl : Implementation σ) (first second : List Operation)
    (handle : σ) :
    impl.run (first ++ second) handle =
      let early := impl.run first handle
      let late := impl.run second early.handle
      ⟨early.answer ++ late.answer, late.handle, early.events ++ late.events⟩ := by
  induction first generalizing handle with
  | nil => rfl
  | cons operation rest ih => simp [run, ih]

@[simp] theorem length_run (impl : Implementation σ) (operations : List Operation)
    (handle : σ) : (impl.run operations handle).answer.length = operations.length := by
  induction operations generalizing handle with
  | nil => rfl
  | cons operation rest ih => simp [run, ih]

@[simp] theorem operations_run (impl : Implementation σ) (operations : List Operation)
    (handle : σ) :
    (impl.run operations handle).answer.map Step.operation = operations := by
  induction operations generalizing handle with
  | nil => rfl
  | cons operation rest ih => simp [run, ih]

@[simp] theorem answer_live (impl : Implementation σ) (use : σ → Reply σ α) :
    (impl.live use).answer = (use impl.create).answer := rfl

@[simp] theorem handle_live (impl : Implementation σ) (use : σ → Reply σ α) :
    (impl.live use).handle = (use impl.create).handle := rfl

@[simp] theorem events_live (impl : Implementation σ) (use : σ → Reply σ α) :
    (impl.live use).events =
      (use impl.create).events ++ impl.release (use impl.create).handle := rfl

end Implementation

end HandleProtocol
