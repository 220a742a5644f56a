import HandleProtocol.Handle.Typed
import HandleProtocol.Log.Filter

/-!
A demonstration of both kinds of handle.

A typed and a tracked handle are taken through open, read, get data and close.
The tracked one is then closed a second time, which it has to refuse.
-/

namespace HandleProtocol.Demonstration

open Log

def note (message : String) (fields : List (String × String)) : Record :=
  ⟨.info, "filehandle_examples::walkthrough", message, fields⟩

/-! ## The typed handle -/

/-- The data that the typed handle read, and the records made on the way. -/
def typed : Payload × List Record :=
  let created := Typed.new
  let read := created.open.read
  let data := read.getData
  let closed := read.close State.readable_ne_closed
  (data,
    [note "created typestate handle" [("state", created.state.name)],
      note "read typestate handle" [("state", read.state.name), ("data", data.text)],
      note "closed typestate handle" [("state", closed.state.name)]])

/-! ## The tracked handle -/

inductive Failure where
  | step (operation : Operation) (cause : Refusal)
  | doubleCloseAccepted
  deriving DecidableEq, Repr

namespace Failure

def message : Failure → String
  | .step operation _ => operation.name ++ " step failed"
  | .doubleCloseAccepted => "second close was accepted"

def cause? : Failure → Option Refusal
  | .step _ cause => some cause
  | .doubleCloseAccepted => none

def chain (failure : Failure) : String :=
  match failure.cause? with
  | some cause => failure.message ++ ": " ++ cause.message
  | none => failure.message

def inspect : Failure → String
  | .step operation cause =>
      "Step \x7b operation: " ++ operation.inspect ++ ", source: " ++ cause.inspect ++ " \x7d"
  | .doubleCloseAccepted => "DoubleCloseAccepted"

end Failure

structure Report where
  data : Payload
  doubleClose : Refusal
  deriving DecidableEq, Repr

namespace Report

def inspect (report : Report) : String :=
  "TrackedReport \x7b data: " ++ report.data.inspect ++
    ", double_close: " ++ report.doubleClose.inspect ++ " \x7d"

def record (report : Report) : Record :=
  note "tracked handle walkthrough finished"
    [("data", report.data.text), ("double_close", report.doubleClose.message)]

end Report

def trackedUse : Call Tracked Failure Report := do
  Tracked.open.mapError (.step .open)
  let _ ← Tracked.read.mapError (.step .read)
  let data ← Tracked.getData.mapError (.step .getData)
  Tracked.close.mapError (.step .close)
  match ← Tracked.close.attempt with
  | .ok () => Call.fail .doubleCloseAccepted
  | .error refusal => return ⟨data, refusal⟩

/-- What came of the tracked handle, and the records made on the way: the report
is noted before the handle is released. -/
def tracked : Except Failure Report × List Record :=
  let used := trackedUse Tracked.new
  let finished := match used.answer with
    | .ok report => [report.record]
    | .error _ => []
  (used.answer,
    used.events.map .ofEvent ++ finished ++ used.handle.release.map .ofEvent)

/-! ## Both, as a program -/

structure Transcript where
  lines : List String
  code : UInt8
  deriving DecidableEq, Repr

/-- Both handles in turn, with those records among the lines that a filter lets through. -/
def transcript (filter : Filter) : Transcript :=
  let written (records : List Record) := (records.filter filter.passes).map Record.line
  let lines := written typed.2 ++ [typed.1.text] ++ written tracked.2
  match tracked.1 with
  | .ok report =>
      ⟨lines ++ [report.data.text, "second close: " ++ report.doubleClose.message], 0⟩
  | .error _ => ⟨lines, 1⟩

end HandleProtocol.Demonstration
