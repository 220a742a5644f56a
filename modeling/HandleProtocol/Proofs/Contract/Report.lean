import HandleProtocol.Handle.Scripted
import HandleProtocol.Handle.Unchecked
import HandleProtocol.Proofs.Contract.Failure
import HandleProtocol.Proofs.Text.Outcome

/-!
# The report of a failure

The text of a report has no step number.  It tells the contract and what was found, and
with that the check that found it: no contract makes the same check twice, and the
finding names its check.  So two reports with one text are about the same failure.
-/

namespace HandleProtocol

/-! ## Findings -/

namespace Finding

theorem message_unexpected (operation : Operation) (actual expected : Outcome) :
    (unexpected operation actual expected).message =
      operation.name ++ " returned " ++ actual.inspect ++ ", expected " ++ expected.inspect :=
  rfl

theorem message_unprepared (operation : Operation) (actual : Outcome) :
    (unprepared operation actual).message =
      "setup step " ++ operation.name ++ " failed with " ++ actual.inspect := rfl

theorem message_uncleared (stored : Payload) :
    (uncleared stored).message = "payload " ++ stored.text ++ " still stored after close" :=
  rfl

/-- An operation's name does not begin like the text of a finding of another kind. -/
theorem name_append_ne {operation : Operation} {start rest rest' : String}
    (hstart : start = "setup step " ∨ start = "payload ") :
    operation.name ++ rest ≠ start ++ rest' := by
  intro h
  rcases hstart with rfl | rfl <;> cases operation <;>
    simp [← String.toList_inj, Operation.name] at h

theorem message_injective : Function.Injective message := by
  have hstored : EndsAt Payload.text " still stored after close" :=
    Payload.endsAt_text rfl (by decide) (by decide)
  intro first second h
  cases first with
  | unexpected operation actual expected =>
      rw [message_unexpected] at h
      cases second with
      | unexpected operation' actual' expected' =>
          simp only [message_unexpected, String.append_assoc, String.append_right_inj,
            Operation.prefixFree_name.append_inj, Outcome.prefixFree_inspect.append_inj] at h
          obtain ⟨rfl, rfl, hexpected⟩ := h
          rw [Outcome.prefixFree_inspect.injective hexpected]
      | unprepared operation' actual' =>
          simp only [message_unprepared, String.append_assoc] at h
          exact absurd h (name_append_ne (.inl rfl))
      | uncleared stored =>
          simp only [message_uncleared, String.append_assoc] at h
          exact absurd h (name_append_ne (.inr rfl))
  | unprepared operation actual =>
      rw [message_unprepared] at h
      cases second with
      | unexpected operation' actual' expected' =>
          simp only [message_unexpected, String.append_assoc] at h
          exact absurd h.symm (name_append_ne (.inl rfl))
      | unprepared operation' actual' =>
          simp only [message_unprepared, String.append_assoc, String.append_right_inj,
            Operation.prefixFree_name.append_inj] at h
          obtain ⟨rfl, hactual⟩ := h
          rw [Outcome.prefixFree_inspect.injective hactual]
      | uncleared stored => simp [← String.toList_inj, message_uncleared] at h
  | uncleared stored =>
      rw [message_uncleared] at h
      cases second with
      | unexpected operation' actual' expected' =>
          simp only [message_unexpected, String.append_assoc] at h
          exact absurd h.symm (name_append_ne (.inr rfl))
      | unprepared operation' actual' => simp [← String.toList_inj, message_unprepared] at h
      | uncleared stored' =>
          simp only [message_uncleared, String.append_assoc, String.append_right_inj] at h
          rw [hstored.injective ((String.append_left_inj _).1 h)]

end Finding

/-! ## Reports -/

namespace Contract

theorem prefixFree_name : PrefixFree name :=
  prefixFree_of_names mem_all (by decide +kernel)

theorem nodup_checks (contract : Contract) : (contract.checks.map Check.told).Nodup := by
  cases contract <;> decide

theorem Breach.eq_of_message_eq {first second : Breach} (h : first.message = second.message) :
    first.contract = second.contract ∧ first.finding = second.finding := by
  simp only [message, String.append_assoc, String.append_right_inj,
    prefixFree_name.append_inj] at h
  exact ⟨h.1, Finding.message_injective h.2⟩

variable {σ τ : Type}

/--
A report pinpoints the failure.  If two contracts fail, each on a handle of its own, and
the reports have the same text, then it is the same contract, which fails at the same
check, and there the two handles show the same outcome or hold the same payload.
-/
theorem report_pinpoints_failure {impl : Implementation σ} {other : Implementation τ}
    {contract contract' : Contract} {breach breach' : Breach}
    (h : (contract.test impl).answer = .error breach)
    (h' : (contract'.test other).answer = .error breach')
    (hmessage : breach.message = breach'.message) :
    contract = contract' ∧ breach = breach' ∧
      contract.FailsAt impl breach.position breach.finding.seen ∧
      contract.FailsAt other breach.position breach.finding.seen := by
  obtain ⟨hcontract, hcheck, hfails⟩ := failsAt_of_test_eq_error h
  obtain ⟨hcontract', hcheck', hfails'⟩ := failsAt_of_test_eq_error h'
  obtain ⟨hsame, hfinding⟩ := Breach.eq_of_message_eq hmessage
  obtain rfl : contract = contract' := by rw [← hcontract, ← hcontract', hsame]
  rw [← hfinding] at hcheck' hfails'
  -- The finding names its check, and the contract makes it at one position only.
  have hlt := (List.getElem?_eq_some_iff.1 hcheck).1
  have hposition : breach.position = breach'.position :=
    (List.getElem?_inj hlt contract.nodup_checks).1 (hcheck.trans hcheck'.symm)
  rw [← hposition] at hfails'
  refine ⟨rfl, ?_, hfails, hfails'⟩
  cases breach
  cases breach'
  simp_all

/-- A handle that closes at any time fails like one whose refusal a fault conceals. -/
theorem report_pinpoints_failure_of_double_close :
    let faulted := Implementation.tracked.scripted ⟨[⟨2, true, .done⟩], none⟩
    let breach : Breach :=
      ⟨.doubleCloseIsRefused, 2, .unexpected .close .done (.refused .alreadyClosed)⟩
    (doubleCloseIsRefused.test .unchecked).answer = .error breach ∧
      (doubleCloseIsRefused.test faulted).answer = .error breach ∧
      breach.message =
        "[double_close_is_refused] close returned Ok(None), expected Err(AlreadyClosed)" ∧
      doubleCloseIsRefused.FailsAt .unchecked 2 (.inl .done) ∧
      doubleCloseIsRefused.FailsAt faulted 2 (.inl .done) := by
  intro faulted breach
  have hunchecked : (doubleCloseIsRefused.test .unchecked).answer = .error breach := rfl
  have hfaulted : (doubleCloseIsRefused.test faulted).answer = .error breach := rfl
  obtain ⟨-, -, hfails, hfails'⟩ := report_pinpoints_failure hunchecked hfaulted rfl
  exact ⟨hunchecked, hfaulted, rfl, hfails, hfails'⟩

end Contract

end HandleProtocol
