import HandleProtocol.Handle.Unchecked
import HandleProtocol.Proofs.Difference.Basic
import HandleProtocol.Proofs.Tracked.Refinement
import Mathlib.Data.List.DropRight

/-!
# Where the unchecked handle differs

The unchecked handle differs from the tracked one exactly where the tracked one
refuses.  The payloads of the two drift apart, since a read of a closed handle
fills only the unchecked one; they are the same whenever the tracked handle is
readable, and nothing else is needed where it accepts.
-/

namespace HandleProtocol

/-- What the unchecked handle makes of an operation, told from those before it: of
these, only the ones after the last close count. -/
def Unchecked.outcome (before : List Operation) : Operation → Outcome
  | .open => .done
  | .read => .data .sentinel
  | .getData => .data (if .read ∈ before.rtakeWhile (· ≠ .close) then .sentinel else .empty)
  | .close => .done

/-! ## The payload of the unchecked handle -/

namespace Unchecked

theorem reached_concat (operations : List Operation) (operation : Operation) :
    (Implementation.unchecked.reached (operations ++ [operation])).stored =
      operation.store (Implementation.unchecked.reached operations).stored := by
  unfold Implementation.reached
  rw [Implementation.handle_run_append, Implementation.run_cons,
    Implementation.perform_unchecked]
  rfl

theorem stored_reached (operations : List Operation) :
    (Implementation.unchecked.reached operations).stored =
      if .read ∈ operations.rtakeWhile (· ≠ .close) then .sentinel else .empty := by
  induction operations using List.reverseRecOn with
  | nil => rfl
  | append_singleton operations operation ih =>
      rw [reached_concat, ih, List.rtakeWhile_concat]
      cases operation <;> simp [Operation.store]

theorem outcomeAfter_eq (operations : List Operation) (operation : Operation) :
    Implementation.unchecked.outcomeAfter operations operation =
      outcome operations operation := by
  unfold Implementation.outcomeAfter
  rw [Implementation.perform_unchecked, stored_reached]
  cases operation <;> rfl

/-! ## Both handles side by side -/

/-- The two handles hold the same payload if the tracked one is readable. -/
structure Alike (tracked : Tracked) (unchecked : Unchecked) : Prop where
  sound : tracked.Sound
  stored_eq : tracked.state = .readable → unchecked.stored = .sentinel

theorem alike_new : Alike .new .new := ⟨rfl, fun h => nomatch h⟩

variable {tracked : Tracked} {unchecked : Unchecked}

/-- An operation that ends in a readable state, refused or not, leaves the sentinel. -/
theorem store_eq_sentinel {state : State} {operation : Operation} {stored : Payload}
    (hafter : state.after operation = .readable)
    (hstored : state = .readable → stored = .sentinel) :
    operation.store stored = .sentinel := by
  cases operation with
  | «open» => exact hstored (by cases state <;> cases hafter; rfl)
  | read => rfl
  | getData => exact hstored (by cases state <;> cases hafter; rfl)
  | close => cases state <;> cases hafter

theorem Alike.step (h : Alike tracked unchecked) (operation : Operation) :
    Alike (tracked.call operation).handle
      (Implementation.unchecked.perform operation unchecked).handle := by
  refine ⟨h.sound.handle_call operation, ?_⟩
  rw [(h.sound.call operation).2, Reference.state_observe, Implementation.perform_unchecked]
  intro hreadable
  exact store_eq_sentinel hreadable h.stored_eq

theorem Alike.outcome_eq_iff (h : Alike tracked unchecked) (operation : Operation) :
    (tracked.call operation).answer =
        (Implementation.unchecked.perform operation unchecked).answer ↔
      (tracked.call operation).answer.isRefused = false := by
  rw [Implementation.perform_unchecked]
  cases htable : tracked.state.transition operation with
  | error refusal =>
      rw [Tracked.call_of_error htable]
      constructor
      · intro hanswer
        have hrefused := congrArg Outcome.isRefused hanswer
        rw [Outcome.isRefused_success] at hrefused
        exact hrefused
      · intro hrefused
        cases hrefused
  | ok next =>
      rw [Tracked.call_of_ok htable]
      simp only [Outcome.isRefused_success, iff_true]
      cases operation with
      | getData =>
          -- Only here does the payload matter, and the handle is readable.
          have hreadable : tracked.state = .readable := by
            cases hstate : tracked.state <;> rw [hstate] at htable <;> cases htable
          have hstored : tracked.stored = Reference.stored tracked.state := h.sound
          rw [hstored, hreadable, h.stored_eq hreadable]
          rfl
      | _ => rfl

theorem Alike.index_between (h : Alike tracked unchecked) (operations : List Operation)
    (index : Nat) :
    (Difference.between index (Implementation.tracked.run operations tracked).answer
        (Implementation.unchecked.run operations unchecked).answer).map Difference.index =
      (Implementation.tracked.run operations tracked).answer.findIdxs
        (fun step => step.outcome.isRefused) index := by
  induction operations generalizing tracked unchecked index with
  | nil => rfl
  | cons operation rest ih =>
      rw [Implementation.run_cons, Implementation.run_cons, Implementation.perform_tracked]
      have hrest := ih (h.step operation) (index + 1)
      rw [List.findIdxs_cons]
      cases hrefused : (tracked.call operation).answer.isRefused with
      | false =>
          rw [Difference.between_cons_of_eq _ _ ((h.outcome_eq_iff operation).2 hrefused)]
          simpa using hrest
      | true =>
          have hne : ¬ (tracked.call operation).answer =
              (Implementation.unchecked.perform operation unchecked).answer := by
            intro heq
            rw [h.outcome_eq_iff, hrefused] at heq
            cases heq
          rw [Difference.between_cons_of_ne _ _ hne]
          simpa using hrest

/--
The differences of the unchecked handle are at the positions that the tracked one
refuses, in order.  Each tells that refusal and what the unchecked handle answers
there, in which its payload is told from the operations since the last close.
-/
theorem differences_are_refusals (operations : List Operation) :
    (differences .tracked .unchecked operations).map Difference.index =
        (Implementation.tracked.runLife operations).answer.findIdxs
          (fun step => step.outcome.isRefused) ∧
      ∀ difference ∈ differences .tracked .unchecked operations,
        (∃ refusal, difference.expected = .refused refusal ∧
          (Implementation.tracked.runLife operations).answer[difference.index]? =
            some ⟨difference.operation, .refused refusal⟩) ∧
        difference.actual =
          outcome (operations.take difference.index) difference.operation := by
  have hindices := alike_new.index_between operations 0
  refine ⟨hindices, ?_⟩
  intro difference hmem
  obtain ⟨hoperation, hexpected, hactual, -⟩ := mem_differences.1 hmem
  have hstep : (Implementation.tracked.runLife operations).answer[difference.index]? =
      some ⟨difference.operation, difference.expected⟩ := by
    rw [Implementation.getElem?_answer_runLife, hoperation, Option.map_some, hexpected]
  have hindex : difference.index ∈ (Implementation.tracked.runLife operations).answer.findIdxs
      (fun step => step.outcome.isRefused) := by
    change (differences .tracked .unchecked operations).map Difference.index = _ at hindices
    rw [Implementation.runLife, Implementation.answer_live]
    exact hindices ▸ List.mem_map_of_mem hmem
  obtain ⟨hlt, hrefused⟩ := List.mem_findIdxs_iff_exists_getElem_pos.1 hindex
  rw [List.getElem?_eq_getElem hlt, Option.some.injEq] at hstep
  rw [hstep] at hrefused
  obtain ⟨refusal, hrefusal⟩ := Outcome.exists_of_isRefused hrefused
  refine ⟨⟨refusal, hrefusal, ?_⟩, ?_⟩
  · rw [List.getElem?_eq_getElem hlt, hstep, ← hrefusal]
  · rw [hactual, outcomeAfter_eq]

/-- A read that the tracked handle refused still fills the unchecked one. -/
theorem differences_are_refusals_after_early_read :
    let difference : Difference :=
      ⟨2, .getData, .refused (.notPermitted .getData .open), .data .sentinel⟩
    difference ∈ differences .tracked .unchecked [.read, .open, .getData] ∧
      (∃ refusal, difference.expected = .refused refusal ∧
        (Implementation.tracked.runLife [.read, .open, .getData]).answer[2]? =
          some ⟨.getData, .refused refusal⟩) ∧
      difference.actual = outcome [.read, .open] .getData := by
  intro difference
  have hmem : difference ∈ differences .tracked .unchecked [.read, .open, .getData] := by
    decide
  exact ⟨hmem, (differences_are_refusals [.read, .open, .getData]).2 difference hmem⟩

end Unchecked

end HandleProtocol
