import HandleProtocol.Event

/-!
Log records: what is written down of an event.
-/

namespace HandleProtocol.Log

inductive Level where
  | error
  | warn
  | info
  | debug
  | trace
  deriving DecidableEq, Repr

namespace Level

def rank : Level → Nat
  | .error => 1
  | .warn => 2
  | .info => 3
  | .debug => 4
  | .trace => 5

def label : Level → String
  | .error => "ERROR"
  | .warn => "WARN"
  | .info => "INFO"
  | .debug => "DEBUG"
  | .trace => "TRACE"

end Level

structure Record where
  level : Level
  target : String
  message : String
  fields : List (String × String)
  deriving DecidableEq, Repr

namespace Record

def line (record : Record) : String :=
  record.fields.foldl (fun text field => text ++ " " ++ field.1 ++ "=" ++ field.2)
    (record.level.label ++ " " ++ record.target ++ ": " ++ record.message)

def ofEvent : Event → Record
  | .moved operation source target =>
      ⟨.debug, "filehandle::tracked", "handle transition",
        [("operation", operation.name), ("from", source.name), ("to", target.name)]⟩
  | .rejected operation state refusal =>
      ⟨.warn, "filehandle::tracked", "rejected handle operation",
        [("operation", operation.name), ("state", state.name), ("error", refusal.message)]⟩
  | .released state =>
      ⟨.debug, "filehandle::tracked", "handle released", [("state", state.name)]⟩

end Record

end HandleProtocol.Log
