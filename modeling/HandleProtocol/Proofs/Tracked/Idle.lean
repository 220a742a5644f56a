import HandleProtocol.Proofs.Replies
import HandleProtocol.Proofs.Tracked.Log

/-!
# Operations that leave no trace

A tracked handle is the same after an operation that it refused, and after a query of
its data.  So any of these may be taken out of a run: the other operations get the
replies that they got before.  A refusal tells the operation that was attempted and
the state that the handle was in, and is in still.
-/

namespace HandleProtocol

theorem Refusal.of_transition {state : State} {operation : Operation} {refusal : Refusal}
    (h : state.transition operation = .error refusal) :
    refusal.operation = operation ∧ refusal.state = state ∧
      (refusal = .alreadyClosed ↔ operation = .close ∧ state = .closed) := by
  cases state <;> cases operation <;> cases h <;> simp [Refusal.operation, Refusal.state]

namespace Tracked

/-! ## One operation -/

theorem transition_of_refused {handle : Tracked} {operation : Operation} {refusal : Refusal}
    (h : (handle.call operation).answer = .refused refusal) :
    handle.state.transition operation = .error refusal := by
  cases htable : handle.state.transition operation with
  | ok next =>
      rw [call_of_ok htable] at h
      cases operation <;> cases h
  | error found =>
      rw [call_of_error htable] at h
      cases h
      rfl

theorem handle_call_of_refused {handle : Tracked} {operation : Operation}
    (h : (handle.call operation).answer.isRefused = true) :
    (handle.call operation).handle = handle := by
  obtain ⟨refusal, hanswer⟩ := Outcome.exists_of_isRefused h
  rw [call_of_error (transition_of_refused hanswer)]

theorem handle_call_getData (handle : Tracked) : (handle.call .getData).handle = handle := by
  cases hrefused : (handle.call .getData).answer.isRefused with
  | true => exact handle_call_of_refused hrefused
  | false =>
      have hsilent : Step.isSilent ⟨.getData, (handle.call .getData).answer⟩ = true := by
        simp [Step.isSilent, hrefused]
      exact (call_of_isSilent hsilent).1

/-! ## Whole runs -/

/-- The positions are of refused operations and of queries only. -/
def Idle (gone : Finset Nat) (operations : List Operation) : Prop :=
  ∀ k ∈ gone, ∀ step, (Implementation.tracked.runLife operations).answer[k]? = some step →
    step.operation = .getData ∨ step.outcome.isRefused = true

theorem Idle.implementation {gone : Finset Nat} {operations : List Operation}
    (h : Idle gone operations) :
    Implementation.tracked.Idle (fun position => position ∉ gone) 0 operations .new := by
  intro k operation hoperation hgone before
  rw [Nat.zero_add, decide_eq_false_iff_not, not_not] at hgone
  have hstep : (Implementation.tracked.runLife operations).answer[k]? =
      some ⟨operation, (before.call operation).answer⟩ := by
    rw [Implementation.getElem?_answer_runLife, hoperation, Option.map_some,
      Implementation.outcomeAfter, Implementation.perform_tracked]
    rfl
  rw [Implementation.perform_tracked]
  rcases h k hgone _ hstep with hquery | hrefused
  · cases hquery
    exact handle_call_getData before
  · exact handle_call_of_refused hrefused

theorem refusal_tells_attempt {start : Tracked} {operations : List Operation} {k : Nat}
    {operation : Operation} {refusal : Refusal}
    (h : (Implementation.tracked.run operations start).answer[k]? =
      some ⟨operation, .refused refusal⟩) :
    let before := (Implementation.tracked.run (operations.take k) start).handle
    refusal.operation = operation ∧ refusal.state = before.state ∧
      (Implementation.tracked.run (operations.take (k + 1)) start).handle = before ∧
      (refusal = .alreadyClosed ↔ operation = .close ∧ before.state = .closed) := by
  intro before
  rw [Implementation.getElem?_answer_run, Option.map_eq_some_iff] at h
  obtain ⟨attempted, hoperation, hstep⟩ := h
  obtain ⟨hattempted, hanswer⟩ := Step.mk.inj hstep
  rw [hattempted] at hoperation hanswer
  rw [Implementation.perform_tracked] at hanswer
  have htable : before.state.transition operation = .error refusal :=
    transition_of_refused hanswer
  obtain ⟨hoperation', hstate, hclosed⟩ := Refusal.of_transition htable
  refine ⟨hoperation', hstate, ?_, hclosed⟩
  rw [List.take_add_one, hoperation, Option.toList_some, Implementation.handle_run_append,
    Implementation.handle_run_cons, Implementation.perform_tracked, call_of_error htable]
  rfl

/--
Any refused operations and any queries can be taken out of a life: the others get the
same replies in the same order, so they come to the same outcomes and raise the same
events, and the handle that is released at the end is the same.  Every refusal tells
the operation that was attempted and the state of the handle, which is left as it was,
and has a cause of its own exactly where a closed handle was to be closed.
-/
theorem idle_leaves_no_trace :
    (∀ (operations : List Operation) (gone : Finset Nat), Idle gone operations →
      let others := without gone operations
      let replies := Implementation.tracked.replies operations .new
      Implementation.tracked.replies others .new = without gone replies ∧
        (Implementation.tracked.runLife others).answer =
          without gone (Implementation.tracked.runLife operations).answer ∧
        (Implementation.tracked.runLife others).events =
          (without gone replies).flatMap Reply.events ++
            [.released (Implementation.tracked.reached operations).state] ∧
        Implementation.tracked.reached others = Implementation.tracked.reached operations) ∧
    ∀ (start : Tracked) (operations : List Operation) (k : Nat) (operation : Operation)
      (refusal : Refusal),
      (Implementation.tracked.run operations start).answer[k]? =
          some ⟨operation, .refused refusal⟩ →
        let before := (Implementation.tracked.run (operations.take k) start).handle
        refusal.operation = operation ∧ refusal.state = before.state ∧
          (Implementation.tracked.run (operations.take (k + 1)) start).handle = before ∧
          (refusal = .alreadyClosed ↔ operation = .close ∧ before.state = .closed) := by
  constructor
  · intro operations gone hidle others replies
    obtain ⟨hreplies, hreached⟩ := hidle.implementation.run_kept
    change Implementation.tracked.replies others .new = without gone replies at hreplies
    change Implementation.tracked.reached others =
      Implementation.tracked.reached operations at hreached
    refine ⟨hreplies, ?_, ?_, hreached⟩
    · calc (Implementation.tracked.runLife others).answer
        _ = (Implementation.tracked.replies others .new).map Reply.answer :=
          Implementation.answer_run_eq _ _ _
        _ = without gone (replies.map Reply.answer) := by
          rw [hreplies]
          exact map_keptFrom _ _
        _ = without gone (Implementation.tracked.runLife operations).answer :=
          congrArg _ (Implementation.answer_run_eq _ _ _).symm
    · rw [events_runLife, Implementation.events_run_eq, hreplies, hreached]
  · intro start operations k operation refusal h
    exact refusal_tells_attempt h

/-- An early read, a query and a second open are taken out of a cycle, and the read
was refused to a closed handle. -/
theorem idle_leaves_no_trace_of_cycle :
    let operations : List Operation := [.read, .open, .read, .getData, .open, .close]
    let gone : Finset Nat := {0, 3, 4}
    Idle gone operations ∧ without gone operations = [.open, .read, .close] ∧
      (Implementation.tracked.runLife [.open, .read, .close]).answer =
        without gone (Implementation.tracked.runLife operations).answer ∧
      (Implementation.tracked.run operations .new).answer[0]? =
        some ⟨.read, .refused (.notPermitted .read .closed)⟩ ∧
      (Implementation.tracked.run (operations.take 1) .new).handle = .new := by
  intro operations gone
  have hidle : Idle gone operations := by
    intro k hk step hstep
    have hk' : k = 0 ∨ k = 3 ∨ k = 4 := by simpa [gone] using hk
    rcases hk' with rfl | rfl | rfl <;> cases hstep <;> decide
  obtain ⟨hothers, hrefusals⟩ := idle_leaves_no_trace
  exact ⟨hidle, rfl, (hothers operations gone hidle).2.1, rfl,
    (hrefusals .new operations 0 .read (.notPermitted .read .closed) rfl).2.2.1⟩

end Tracked

end HandleProtocol
