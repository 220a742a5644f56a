import HandleProtocol.Handle.Typed
import HandleProtocol.Handle.Unchecked

/-!
The handles that a session keeps, in their three forms, and what is shown of one.
-/

namespace HandleProtocol.Session

inductive Form where
  | typed
  | tracked
  | unchecked
  deriving DecidableEq, Repr

namespace Form

def name : Form → String
  | .typed => "typed"
  | .tracked => "tracked"
  | .unchecked => "unchecked"

/-- The form of a new handle; the typed and the tracked one have two words each. -/
def ofWord? : String → Option Form
  | "typed" => some .typed
  | "typed_default" => some .typed
  | "tracked" => some .tracked
  | "tracked_create" => some .tracked
  | "unchecked" => some .unchecked
  | _ => none

end Form

inductive Held where
  | typed (handle : SomeTyped)
  | tracked (handle : Tracked)
  | unchecked (handle : Unchecked)
  deriving DecidableEq, Repr

namespace Held

def new : Form → Held
  | .typed => .typed .new
  | .tracked => .tracked .new
  | .unchecked => .unchecked .new

def release : Held → List Event
  | .typed _ => []
  | .tracked handle => handle.release
  | .unchecked _ => []

end Held

/-! ## Views -/

structure View where
  form : Form
  /-- An unchecked handle has no state. -/
  state : Option State
  /-- A typed handle shows its payload where its data can be asked for. -/
  stored : Option Payload
  text : String
  deriving DecidableEq, Repr

def Held.view : Held → View
  | .typed handle => ⟨.typed, some handle.state, handle.shown?, handle.handle.inspect⟩
  | .tracked handle => ⟨.tracked, some handle.state, some handle.stored, handle.inspect⟩
  | .unchecked handle => ⟨.unchecked, none, some handle.stored, handle.inspect⟩

end HandleProtocol.Session
