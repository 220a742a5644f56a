import HandleProtocol.Handle.Unchecked
import HandleProtocol.Proofs.Contract.Checks
import HandleProtocol.Proofs.Recorded

/-!
# Contracts and differences

The outcomes that a contract expects are those of the tracked handle.  So a
contract passes exactly if an implementation does not differ from the tracked
handle on the contract's operations, and otherwise reports the first difference
and stops there.  `closeClearsPayload` also looks inside the handle and is left
out here.
-/

namespace HandleProtocol

namespace Contract

/-- The operations of a contract that goes through to its end. -/
def operations : Contract → List Operation
  | .fullLifecycle => [.open, .read, .getData, .close]
  | .freshHandleHasNoData => [.getData]
  | .readBeforeOpenIsRefused => [.read, .getData, .close]
  | .getDataBeforeReadIsRefused => [.open, .getData]
  | .closeClearsPayload => [.open, .read, .close, .getData, .open, .getData]
  | .closeFreshHandleIsRefused => [.close]
  | .doubleCloseIsRefused => [.open, .close, .close]
  | .refusedOperationChangesNothing => [.open, .read, .open, .getData]

variable {σ : Type}

/-- On a plain implementation a contract checks what the tracked handle does. -/
theorem runAll_checks {contract : Contract} {impl : Implementation σ}
    (h : contract ≠ .closeClearsPayload) (hplain : impl.Plain) :
    Check.runAll impl 0 contract.checks =
      Check.runAll impl 0
        ((Implementation.tracked.runLife contract.operations).answer.map Check.ofStep) := by
  cases contract with
  | freshHandleHasNoData =>
      -- The only one that does not ask for the data as an operation.
      rw [checks, Check.runAll, Check.run_query hplain]
      rfl
  | closeClearsPayload => exact absurd rfl h
  | _ => rfl

theorem test_eq (contract : Contract) (impl : Implementation σ) :
    contract.test impl =
      let checked := Check.runAll impl 0 contract.checks impl.create
      ⟨checked.answer.mapError fun (position, finding) => ⟨contract, position, finding⟩,
        checked.handle, checked.events ++ impl.release checked.handle⟩ := rfl

theorem test_eq_ok_iff {contract : Contract} {impl : Implementation σ} :
    (contract.test impl).answer = .ok () ↔
      (Check.runAll impl 0 contract.checks impl.create).answer = .ok () := by
  rw [test_eq]
  cases hanswer : (Check.runAll impl 0 contract.checks impl.create).answer with
  | ok _ => simp [hanswer, Except.mapError]
  | error found => simp [hanswer, Except.mapError]

/-- The contract of the fresh handle is about the call for its data, whatever the
implementation makes of the operation. -/
theorem test_freshHandleHasNoData_eq_ok_iff {impl : Implementation σ} :
    (freshHandleHasNoData.test impl).answer = .ok () ↔
      (impl.getData impl.create).answer = .error (.notPermitted .getData .closed) := by
  rw [test_eq_ok_iff, checks, Check.runAll_cons_eq_ok_iff, Check.run, Reply.answer_map,
    Check.compare_eq_ok_iff]
  cases hanswer : (impl.getData impl.create).answer with
  | ok payload => simp
  | error refusal => simp [Check.runAll, Call.pure_apply]

-- A handle that answers every operation alike may still meet it.
example :
    let impl := { Implementation.tracked with perform := fun _ handle => ⟨.done, handle, []⟩ }
    (freshHandleHasNoData.test impl).answer = .ok () ∧
      differences .tracked impl freshHandleHasNoData.operations ≠ [] := by decide

theorem test_of_no_difference {contract : Contract} {impl : Implementation σ}
    (h : contract ≠ .closeClearsPayload) (hplain : impl.Plain)
    (hnone : differences .tracked impl contract.operations = []) :
    (contract.test impl).answer = .ok () ∧
      (contract.test impl).handle = impl.reached contract.operations := by
  let script := (Implementation.tracked.runLife contract.operations).answer
  have hoperations : script.map Step.operation = contract.operations :=
    Implementation.operations_run _ _ _
  have hscript : Difference.between 0 script
      (impl.run (script.map Step.operation) impl.create).answer = [] := by
    rw [hoperations]
    exact hnone
  have hchecked := Check.runAll_ofStep_of_nil script hscript
  rw [← runAll_checks h hplain, hoperations] at hchecked
  rw [test_eq, hchecked]
  exact ⟨rfl, rfl⟩

theorem test_of_first_difference {contract : Contract} {impl : Implementation σ}
    {first : Difference} {others : List Difference} (h : contract ≠ .closeClearsPayload)
    (hplain : impl.Plain)
    (hfirst : differences .tracked impl contract.operations = first :: others) :
    (contract.test impl).answer = .error ⟨contract, first.index,
        .unexpected first.operation first.actual first.expected⟩ ∧
      (contract.test impl).handle =
        impl.reached (contract.operations.take (first.index + 1)) := by
  let script := (Implementation.tracked.runLife contract.operations).answer
  have hoperations : script.map Step.operation = contract.operations :=
    Implementation.operations_run _ _ _
  have hscript : Difference.between 0 script
      (impl.run (script.map Step.operation) impl.create).answer = first :: others := by
    rw [hoperations]
    exact hfirst
  obtain ⟨k, hindex, hchecked⟩ := Check.runAll_ofStep_of_cons script hscript
  rw [Nat.zero_add] at hindex
  rw [← runAll_checks h hplain, hoperations, ← hindex] at hchecked
  rw [test_eq, hchecked]
  exact ⟨rfl, rfl⟩

/-- A contract passes exactly if the handle answers its operations like the tracked one. -/
theorem test_eq_ok_iff_answer_eq {contract : Contract} {impl : Implementation σ}
    (h : contract ≠ .closeClearsPayload) (hplain : impl.Plain) :
    (contract.test impl).answer = .ok () ↔
      (impl.runLife contract.operations).answer =
        (Implementation.tracked.runLife contract.operations).answer := by
  rw [← differences_eq_nil_iff]
  cases hfound : differences .tracked impl contract.operations with
  | nil => simp [(test_of_no_difference h hplain hfound).1]
  | cons first others => simp [(test_of_first_difference h hplain hfound).1]

/-! ## What the handle is asked for -/

theorem differences_recorded {τ : Type} (reference : Implementation τ)
    (impl : Implementation σ) (operations : List Operation) :
    differences reference impl.recorded operations = differences reference impl operations := by
  unfold differences Implementation.runLife
  rw [Implementation.answer_live, Implementation.answer_live, Implementation.run_recorded]
  rfl

theorem asked_reached (impl : Implementation σ) (operations : List Operation) :
    (impl.recorded.reached operations).asked = operations := by
  unfold Implementation.reached
  rw [Implementation.run_recorded]
  exact List.nil_append operations

/--
A contract passes exactly if there is no difference from the tracked handle on its
operations.  Otherwise its report tells the contract's name and the first difference,
and the handle has been asked for the operations up to there.
-/
theorem test_agrees_with_differences {impl : Implementation σ} (hplain : impl.Plain)
    {contract : Contract} (hcontract : contract ≠ .closeClearsPayload) :
    let found := differences .tracked impl contract.operations
    (contract.test impl.recorded).answer = (contract.test impl).answer ∧
      ((contract.test impl).answer = .ok () ↔ found = []) ∧
      (found = [] → (contract.test impl.recorded).handle.asked = contract.operations) ∧
      ∀ first others, found = first :: others →
        ∃ breach, (contract.test impl).answer = .error breach ∧
          breach.contract = contract ∧
          breach.finding.message = first.operation.name ++ " returned " ++
            first.actual.inspect ++ ", expected " ++ first.expected.inspect ∧
          breach.message = "[" ++ contract.name ++ "] " ++ breach.finding.message ∧
          (contract.test impl.recorded).handle.asked =
            contract.operations.take (first.index + 1) := by
  intro found
  have hrecorded : differences .tracked impl.recorded contract.operations = found :=
    differences_recorded _ _ _
  cases hfound : found with
  | nil =>
      obtain ⟨hanswer, -⟩ := test_of_no_difference hcontract hplain hfound
      obtain ⟨hanswer', hhandle⟩ :=
        test_of_no_difference hcontract hplain.recorded (hrecorded.trans hfound)
      refine ⟨hanswer'.trans hanswer.symm, ⟨fun _ => rfl, fun _ => hanswer⟩, ?_, ?_⟩
      · intro _
        rw [hhandle, asked_reached]
      · intro first others h
        cases h
  | cons first others =>
      obtain ⟨hanswer, -⟩ := test_of_first_difference hcontract hplain hfound
      obtain ⟨hanswer', hhandle⟩ :=
        test_of_first_difference hcontract hplain.recorded (hrecorded.trans hfound)
      refine ⟨hanswer'.trans hanswer.symm, ⟨fun hok => ?_, fun hnil => ?_⟩, ?_, ?_⟩
      · rw [hanswer] at hok
        cases hok
      · cases hnil
      · intro hnil
        cases hnil
      · intro first' others' h
        obtain ⟨rfl, rfl⟩ := List.cons.inj h
        exact ⟨_, hanswer, rfl, rfl, rfl, by rw [hhandle, asked_reached]⟩

/-- The unchecked handle reads before it is open, and is asked for nothing more. -/
theorem test_agrees_with_differences_of_unchecked :
    let contract := readBeforeOpenIsRefused
    let first : Difference :=
      ⟨0, .read, .refused (.notPermitted .read .closed), .data .sentinel⟩
    Implementation.unchecked.Plain ∧ contract ≠ .closeClearsPayload ∧
      (∃ others, differences .tracked .unchecked contract.operations = first :: others) ∧
      ∃ breach, (contract.test .unchecked).answer = .error breach ∧
        breach.contract = contract ∧
        breach.finding.message = first.operation.name ++ " returned " ++
          first.actual.inspect ++ ", expected " ++ first.expected.inspect ∧
        breach.message = "[read_before_open_is_refused] " ++ breach.finding.message ∧
        (contract.test Implementation.unchecked.recorded).handle.asked = [.read] := by
  intro contract first
  have hplain := Implementation.plain_unchecked
  have hcontract : contract ≠ .closeClearsPayload := by decide
  refine ⟨hplain, hcontract, ⟨_, rfl⟩, ?_⟩
  exact (test_agrees_with_differences hplain hcontract).2.2.2 first _ rfl

end Contract

end HandleProtocol
