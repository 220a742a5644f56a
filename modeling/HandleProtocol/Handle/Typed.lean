import HandleProtocol.Handle.Tracked

/-!
The handle whose state is part of its type.

Each state has only the operations that make sense in it, so an operation out of
order cannot be written down.  Nothing is refused and no events are raised.
Where the state has to be a value again, the handle is erased into a tracked one.
-/

namespace HandleProtocol

structure Typed (state : State) where
  stored : Payload
  deriving DecidableEq, Repr

namespace Typed

variable {state : State}

protected def state (_ : Typed state) : State := state

def new : Typed .closed := ⟨.empty⟩

def «open» (handle : Typed .closed) : Typed .open := ⟨handle.stored⟩

def read (_ : Typed .open) : Typed .readable := ⟨.sentinel⟩

def getData (handle : Typed .readable) : Payload := handle.stored

/-- A closed handle has no close. -/
def close (_ : Typed state) (_ : state ≠ .closed) : Typed .closed := new

def erase (handle : Typed state) : Tracked := ⟨state, handle.stored⟩

/-- What holds of a handle that is given up: only a readable one has data. -/
def Releasable (handle : Typed state) : Prop :=
  state = .readable ∨ handle.stored.isEmpty = true

instance (handle : Typed state) : Decidable handle.Releasable :=
  inferInstanceAs (Decidable (_ ∨ _))

def inspect (handle : Typed state) : String :=
  "FileHandle \x7b data: " ++ handle.stored.inspect ++
    ", _state: PhantomData<filehandle::handle::states::" ++ state.inspect ++ "> \x7d"

def roundTrip : Payload :=
  let handle := new.open.read
  handle.getData

end Typed

/-! ## Some typed handle -/

structure SomeTyped where
  state : State
  handle : Typed state
  deriving DecidableEq, Repr

namespace SomeTyped

def new : SomeTyped := ⟨.closed, .new⟩

def call? : Operation → SomeTyped → Option (Outcome × SomeTyped)
  | .open, ⟨.closed, handle⟩ => some (.done, ⟨.open, handle.open⟩)
  | .read, ⟨.open, handle⟩ => some (.done, ⟨.readable, handle.read⟩)
  | .getData, ⟨.readable, handle⟩ => some (.data handle.getData, ⟨.readable, handle⟩)
  | .close, ⟨.open, handle⟩ => some (.done, ⟨.closed, handle.close State.open_ne_closed⟩)
  | .close, ⟨.readable, handle⟩ =>
      some (.done, ⟨.closed, handle.close State.readable_ne_closed⟩)
  | _, _ => none

/-- The payload that the handle shows: only a readable one shows any. -/
def shown? : SomeTyped → Option Payload
  | ⟨.readable, handle⟩ => some handle.getData
  | _ => none

end SomeTyped

end HandleProtocol
