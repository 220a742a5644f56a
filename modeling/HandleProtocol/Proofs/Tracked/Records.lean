import HandleProtocol.Log.Record
import HandleProtocol.Proofs.Tracked.Trace

/-!
# The records of a tracked handle

Every event is written down in one record.  So the moves, and the state that is in force
after some events, can be told from the records alone.
-/

namespace HandleProtocol.Log

namespace Record

def field? (record : Record) (key : String) : Option String := record.fields.lookup key

/-! ## What has to be written down -/

def transition (operation : Operation) (source target : State) : Record :=
  ⟨.debug, "filehandle::tracked", "handle transition",
    [("operation", operation.name), ("from", source.name), ("to", target.name)]⟩

def release (state : State) : Record :=
  ⟨.debug, "filehandle::tracked", "handle released", [("state", state.name)]⟩

end Record

/-! ## What can be told from records -/

def transitions (log : List Record) : List Record :=
  log.filter fun record => record.message = "handle transition"

/-- The name of the state that the last move led to, or of the one in which a handle begins. -/
def inForce (log : List Record) : Option String :=
  match (transitions log).getLast? with
  | none => some State.closed.name
  | some record => record.field? "to"

end HandleProtocol.Log
