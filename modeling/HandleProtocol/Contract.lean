import HandleProtocol.Handle.Tracked

/-!
The contracts that a handle is held to.

A contract is a list of checks, made in order on a fresh handle.  The first check
that fails ends it, with a report of what was found.
-/

namespace HandleProtocol

/-! ## Checks -/

inductive Check where
  | expect (operation : Operation) (outcome : Outcome)
  /-- The data are asked for by a call, and not as an operation. -/
  | query (outcome : Outcome)
  /-- The operation is not refused. -/
  | prepare (operation : Operation)
  /-- The handle holds the empty payload. -/
  | cleared
  deriving DecidableEq, Repr

inductive Finding where
  | unexpected (operation : Operation) (actual expected : Outcome)
  | unprepared (operation : Operation) (actual : Outcome)
  | uncleared (stored : Payload)
  deriving DecidableEq, Repr

def Finding.message : Finding → String
  | .unexpected operation actual expected =>
      operation.name ++ " returned " ++ actual.inspect ++ ", expected " ++ expected.inspect
  | .unprepared operation actual =>
      "setup step " ++ operation.name ++ " failed with " ++ actual.inspect
  | .uncleared stored => "payload " ++ stored.text ++ " still stored after close"

namespace Check

def expectRefused (operation : Operation) (state : State) : Check :=
  .expect operation (.refused (.notPermitted operation state))

/-- Hold an outcome against the one that is expected. -/
def compare (operation : Operation) (expected actual : Outcome) : Except Finding Unit :=
  if actual = expected then .ok () else .error (.unexpected operation actual expected)

variable {σ : Type}

def run (impl : Implementation σ) : Check → Call σ Finding Unit
  | .expect operation expected => fun handle =>
      (impl.perform operation handle).map (compare operation expected)
  | .query expected => fun handle =>
      (impl.getData handle).map fun answer => compare .getData expected (.ofData answer)
  | .prepare operation => fun handle =>
      (impl.perform operation handle).map fun actual =>
        if actual.isRefused then .error (.unprepared operation actual) else .ok ()
  | .cleared => fun handle =>
      if (impl.stored handle).isEmpty then ⟨.ok (), handle, []⟩
      else ⟨.error (.uncleared (impl.stored handle)), handle, []⟩

/-- Make checks in order, the first of them at this position, and stop with the
position and the finding of the first that fails. -/
def runAll (impl : Implementation σ) (position : Nat) :
    List Check → Call σ (Nat × Finding) Unit
  | [] => pure ()
  | check :: rest => do
      (check.run impl).mapError fun finding => (position, finding)
      runAll impl (position + 1) rest

end Check

/-! ## The contracts -/

inductive Contract where
  | fullLifecycle
  | freshHandleHasNoData
  | readBeforeOpenIsRefused
  | getDataBeforeReadIsRefused
  | closeClearsPayload
  | closeFreshHandleIsRefused
  | doubleCloseIsRefused
  | refusedOperationChangesNothing
  deriving DecidableEq, Repr

namespace Contract

def all : List Contract :=
  [.fullLifecycle, .freshHandleHasNoData, .readBeforeOpenIsRefused,
    .getDataBeforeReadIsRefused, .closeClearsPayload, .closeFreshHandleIsRefused,
    .doubleCloseIsRefused, .refusedOperationChangesNothing]

def name : Contract → String
  | .fullLifecycle => "full_lifecycle"
  | .freshHandleHasNoData => "fresh_handle_has_no_data"
  | .readBeforeOpenIsRefused => "read_before_open_is_refused"
  | .getDataBeforeReadIsRefused => "get_data_before_read_is_refused"
  | .closeClearsPayload => "close_clears_payload"
  | .closeFreshHandleIsRefused => "close_fresh_handle_is_refused"
  | .doubleCloseIsRefused => "double_close_is_refused"
  | .refusedOperationChangesNothing => "refused_operation_changes_nothing"

def ofName? (name : String) : Option Contract :=
  all.find? fun contract => contract.name = name

def checks : Contract → List Check
  | .fullLifecycle =>
      [.expect .open .done, .expect .read (.data .sentinel),
        .expect .getData (.data .sentinel), .expect .close .done]
  | .freshHandleHasNoData => [.query (.refused (.notPermitted .getData .closed))]
  | .readBeforeOpenIsRefused =>
      [.expectRefused .read .closed, .expectRefused .getData .closed,
        .expect .close (.refused .alreadyClosed)]
  | .getDataBeforeReadIsRefused => [.expect .open .done, .expectRefused .getData .open]
  | .closeClearsPayload =>
      [.prepare .open, .prepare .read, .prepare .close, .cleared,
        .expectRefused .getData .closed, .expect .open .done, .expectRefused .getData .open]
  | .closeFreshHandleIsRefused => [.expect .close (.refused .alreadyClosed)]
  | .doubleCloseIsRefused =>
      [.expect .open .done, .expect .close .done, .expect .close (.refused .alreadyClosed)]
  | .refusedOperationChangesNothing =>
      [.expect .open .done, .expect .read (.data .sentinel),
        .expectRefused .open .readable, .expect .getData (.data .sentinel)]

/-! ## Reports -/

structure Breach where
  contract : Contract
  position : Nat
  finding : Finding
  deriving DecidableEq, Repr

def Breach.message (breach : Breach) : String :=
  "[" ++ breach.contract.name ++ "] " ++ breach.finding.message

def Breach.inspect (breach : Breach) : String :=
  "ContractTestFailure \x7b scenario: \"" ++ breach.contract.name ++
    "\", detail: \"" ++ breach.finding.message ++ "\" \x7d"

variable {σ : Type}

def hold (contract : Contract) (impl : Implementation σ) : Call σ Breach Unit :=
  (Check.runAll impl 0 contract.checks).mapError fun (position, finding) =>
    ⟨contract, position, finding⟩

def test (contract : Contract) (impl : Implementation σ) :
    Reply σ (Except Breach Unit) :=
  impl.live (contract.hold impl)

@[simp] theorem mem_all (contract : Contract) : contract ∈ all := by
  cases contract <;> simp [all]

@[simp] theorem ofName?_name (contract : Contract) :
    ofName? contract.name = some contract := by
  cases contract <;> rfl

end Contract

end HandleProtocol
