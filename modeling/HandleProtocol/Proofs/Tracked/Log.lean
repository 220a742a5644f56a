import HandleProtocol.Proofs.Run
import HandleProtocol.Proofs.Tracked.Records

/-!
# The log of a tracked handle

The log of a life tells its operations, except for the queries of the data that
went through.  They can be read back from the records, and leaving them out of a
run changes nothing.  So two runs have one log exactly if they differ in nothing
else.  What the records say of the moves, the rejections and the release is true.
-/

namespace HandleProtocol

/-- The operation that a record is about. -/
def Log.Record.operation? (record : Log.Record) : Option Operation :=
  (record.field? "operation").bind Operation.ofName?

/-- Is the step a query of the data that was answered? -/
def Step.isSilent (step : Step) : Bool :=
  step.operation = .getData && !step.outcome.isRefused

namespace Tracked

/-! ## One call -/

theorem call_of_isSilent {handle : Tracked} {operation : Operation}
    (h : Step.isSilent ⟨operation, (handle.call operation).answer⟩ = true) :
    (handle.call operation).handle = handle ∧ (handle.call operation).events = [] := by
  simp only [Step.isSilent, Bool.and_eq_true, decide_eq_true_eq, Bool.not_eq_true'] at h
  obtain ⟨rfl, haccepted⟩ := h
  cases htable : handle.state.transition .getData with
  | error refusal =>
      rw [call_of_error htable] at haccepted
      cases haccepted
  | ok next =>
      rw [call_of_ok htable, eq_of_transition_getData htable]
      exact ⟨rfl, rfl⟩

/-- The log of some operations on a fresh handle that is then released. -/
def log (operations : List Operation) : List Log.Record :=
  (Implementation.tracked.runLife operations).events.map .ofEvent

theorem events_runLife (operations : List Operation) :
    (Implementation.tracked.runLife operations).events =
      (Implementation.tracked.run operations .new).events ++
        [.released (Implementation.tracked.reached operations).state] := rfl

theorem coherent_runLife (operations : List Operation) :
    Coherent (Implementation.tracked.runLife operations).events := by
  rw [events_runLife]
  exact (trace_run .new operations).coherent

end Tracked

end HandleProtocol
