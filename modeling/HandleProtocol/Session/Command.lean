import HandleProtocol.Session.Held

/-!
Commands, and what each does to the handle of one name.

A name either has a handle or is free: its slot holds a handle or nothing.  A
command is answered from this slot alone, and changes nothing else.
-/

namespace HandleProtocol.Session

inductive Command where
  | create (form : Form)
  | call (operation : Operation)
  /-- Use an operation through the implementation of the handle's form. -/
  | perform (operation : Operation)
  | erase
  | release
  | peek
  deriving DecidableEq, Repr

inductive Answer where
  | outcome (outcome : Outcome)
  | malformed
  | absent
  /-- This form of handle has no such operation now. -/
  | notCallable
  deriving DecidableEq, Repr

/-- What a command answers, leaves in the slot, and raises. -/
structure Response where
  answer : Answer
  slot : Option Held
  events : List Event
  deriving DecidableEq, Repr

namespace Response

def done (slot : Option Held) (events : List Event) : Response :=
  ⟨.outcome .done, slot, events⟩

def fail (answer : Answer) (slot : Option Held) : Response := ⟨answer, slot, []⟩

def ofReply {σ : Type} (hold : σ → Held) (reply : Reply σ Outcome) : Response :=
  ⟨.outcome reply.answer, some (hold reply.handle), reply.events⟩

end Response

def endSlot : Option Held → List Event
  | none => []
  | some held => held.release

namespace Held

def call (operation : Operation) : Held → Response
  | .typed handle =>
      match handle.call? operation with
      | some (outcome, next) => ⟨.outcome outcome, some (.typed next), []⟩
      | none => .fail .notCallable (some (.typed handle))
  | .tracked handle => .ofReply .tracked (handle.call operation)
  | .unchecked handle => .ofReply .unchecked (Implementation.unchecked.perform operation handle)

def perform (operation : Operation) : Held → Response
  | .typed handle => .fail .notCallable (some (.typed handle))
  | .tracked handle => .ofReply .tracked (Implementation.tracked.perform operation handle)
  | .unchecked handle => .ofReply .unchecked (Implementation.unchecked.perform operation handle)

def erase : Held → Response
  | .typed handle => .done (some (.tracked handle.handle.erase)) []
  | .tracked handle => .fail .notCallable (some (.tracked handle))
  | .unchecked handle => .fail .notCallable (some (.unchecked handle))

def obey (held : Held) : Command → Response
  | .create form => .done (some (.new form)) held.release
  | .call operation => held.call operation
  | .perform operation => held.perform operation
  | .erase => held.erase
  | .release => .done none held.release
  | .peek => .done (some held) []

end Held

/-- Obey a command on a slot: a free name can only be given a new handle. -/
def obey (slot : Option Held) (command : Command) : Response :=
  match slot, command with
  | some held, command => held.obey command
  | none, .create form => .done (some (.new form)) []
  | none, _ => .fail .absent none

/-! ## Requests -/

/-- A request as it comes in: words, each of which may be missing. -/
structure Request where
  name : Option String
  verb : Option String
  kind : Option String
  operation : Option String
  deriving DecidableEq, Repr

def Request.command? (request : Request) : Option Command := do
  match ← request.verb with
  | "new" => return .create (← Form.ofWord? (← request.kind))
  | "call" => return .call (← Operation.ofName? (← request.operation))
  | "apply" => return .perform (← Operation.ofName? (← request.operation))
  | "erase" => return .erase
  | "release" => return .release
  | "drop" => return .release
  | "peek" => return .peek
  | _ => none

/-- Answer a request from the slot of its name; one that is no command is refused. -/
def Request.respond (request : Request) (slot : Option Held) : Response :=
  match request.command? with
  | some command => obey slot command
  | none => .fail .malformed slot

end HandleProtocol.Session
