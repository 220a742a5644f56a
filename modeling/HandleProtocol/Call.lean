import HandleProtocol.Event

/-!
Calls on a handle.

A call answers, leaves a handle behind and raises events.  A sequence of calls
stops at the first error; the handle and the events that this error left behind
stay.
-/

namespace HandleProtocol

structure Reply (σ α : Type) where
  answer : α
  handle : σ
  events : List Event
  deriving DecidableEq, Repr

def Reply.map {σ α β : Type} (f : α → β) (reply : Reply σ α) : Reply σ β :=
  ⟨f reply.answer, reply.handle, reply.events⟩

@[simp] theorem Reply.answer_map {σ α β : Type} (f : α → β) (reply : Reply σ α) :
    (reply.map f).answer = f reply.answer := rfl

@[simp] theorem Reply.handle_map {σ α β : Type} (f : α → β) (reply : Reply σ α) :
    (reply.map f).handle = reply.handle := rfl

@[simp] theorem Reply.events_map {σ α β : Type} (f : α → β) (reply : Reply σ α) :
    (reply.map f).events = reply.events := rfl

/-- A call on a handle of type `σ` that answers with an `α` or fails with an `ε`. -/
def Call (σ ε α : Type) : Type := σ → Reply σ (Except ε α)

namespace Call

variable {σ ε ε' α β : Type}

protected def pure (a : α) : Call σ ε α := fun handle => ⟨.ok a, handle, []⟩

protected def bind (call : Call σ ε α) (next : α → Call σ ε β) : Call σ ε β := fun handle =>
  match call handle with
  | ⟨.error e, left, events⟩ => ⟨.error e, left, events⟩
  | ⟨.ok a, left, events⟩ =>
      let later := next a left
      ⟨later.answer, later.handle, events ++ later.events⟩

instance : Monad (Call σ ε) where
  pure := Call.pure
  bind := Call.bind

def fail (e : ε) : Call σ ε α := fun handle => ⟨.error e, handle, []⟩

def mapError (f : ε → ε') (call : Call σ ε α) : Call σ ε' α := fun handle =>
  (call handle).map fun answer => answer.mapError f

/-- The same call, where failing is an answer like any other. -/
def attempt (call : Call σ ε α) : Call σ ε' (Except ε α) := fun handle =>
  (call handle).map .ok

theorem pure_apply (a : α) (handle : σ) :
    (pure a : Call σ ε α) handle = ⟨.ok a, handle, []⟩ := rfl

theorem bind_apply (call : Call σ ε α) (next : α → Call σ ε β) (handle : σ) :
    (call >>= next) handle =
      match call handle with
      | ⟨.error e, left, events⟩ => ⟨.error e, left, events⟩
      | ⟨.ok a, left, events⟩ =>
          ⟨(next a left).answer, (next a left).handle, events ++ (next a left).events⟩ := rfl

theorem bind_of_error {call : Call σ ε α} {next : α → Call σ ε β} {handle left : σ}
    {e : ε} {events : List Event} (h : call handle = ⟨.error e, left, events⟩) :
    (call >>= next) handle = ⟨.error e, left, events⟩ := by
  simp only [bind_apply, h]

theorem bind_of_ok {call : Call σ ε α} {next : α → Call σ ε β} {handle left : σ}
    {a : α} {events : List Event} (h : call handle = ⟨.ok a, left, events⟩) :
    (call >>= next) handle =
      ⟨(next a left).answer, (next a left).handle, events ++ (next a left).events⟩ := by
  simp only [bind_apply, h]

end Call

end HandleProtocol
