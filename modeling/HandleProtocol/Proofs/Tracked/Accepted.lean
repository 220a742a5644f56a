import HandleProtocol.Handle.Tracked
import HandleProtocol.Proofs.Run
import Mathlib.Data.List.TakeWhile

/-!
# Accepted operations

A list of operations leads from a state to another one if the transition table
permits each of them in the state that those before it reached.  A tracked handle
accepts the lists that lead somewhere, and is then in the state to which they lead.
-/

namespace HandleProtocol

inductive State.Leads : State → List Operation → State → Prop
  | nil (state : State) : Leads state [] state
  | cons {state next last : State} {operation : Operation} {rest : List Operation} :
      state.transition operation = .ok next → Leads next rest last →
        Leads state (operation :: rest) last

namespace State.Leads

variable {state middle last : State} {first second : List Operation}

theorem append (hfirst : Leads state first middle) (hsecond : Leads middle second last) :
    Leads state (first ++ second) last := by
  induction hfirst with
  | nil => exact hsecond
  | cons htable _ ih => exact .cons htable (ih hsecond)

theorem split (h : Leads state (first ++ second) last) :
    ∃ middle, Leads state first middle ∧ Leads middle second last := by
  induction first generalizing state with
  | nil => exact ⟨state, .nil state, h⟩
  | cons operation first ih =>
      cases h with
      | cons htable hrest =>
          obtain ⟨middle, hfirst, hsecond⟩ := ih hrest
          exact ⟨middle, .cons htable hfirst, hsecond⟩

theorem afterAll_eq (h : Leads state first last) : state.afterAll first = last := by
  induction h with
  | nil => rfl
  | cons htable _ ih =>
      rw [afterAll_cons, after, htable]
      exact ih

theorem cons_iff {operation : Operation} {rest : List Operation} :
    Leads state (operation :: rest) last ↔
      ∃ next, state.transition operation = .ok next ∧ Leads next rest last := by
  constructor
  · intro h
    cases h with
    | cons htable hrest => exact ⟨_, htable, hrest⟩
  · rintro ⟨next, htable, hrest⟩
    exact .cons htable hrest

end State.Leads

/-! ## Lists that are accepted -/

namespace Implementation

variable {σ : Type}

/-- A fresh handle refuses none of the operations. -/
def Accepts (impl : Implementation σ) (operations : List Operation) : Prop :=
  ∀ step ∈ (impl.runLife operations).answer, step.outcome.isRefused = false

instance (impl : Implementation σ) (operations : List Operation) :
    Decidable (impl.Accepts operations) :=
  inferInstanceAs (Decidable (∀ step ∈ (impl.runLife operations).answer, _))

/-- The index of the first refused step; where none is refused, their number. -/
def firstRefused (impl : Implementation σ) (operations : List Operation) : Nat :=
  (impl.runLife operations).answer.findIdx fun step => step.outcome.isRefused

theorem firstRefused_le (impl : Implementation σ) (operations : List Operation) :
    impl.firstRefused operations ≤ operations.length := by
  rw [← impl.length_runLife operations]
  exact List.findIdx_le_length

theorem accepts_take_firstRefused (impl : Implementation σ) (operations : List Operation) :
    impl.Accepts (operations.take (impl.firstRefused operations)) := by
  let answered := (impl.runLife operations).answer
  have hwhile : answered.take (impl.firstRefused operations) =
      answered.takeWhile fun step => !step.outcome.isRefused := by
    rw [List.takeWhile_eq_take_findIdx_not]
    simp only [Bool.not_not]
    rfl
  intro step hstep
  rw [answer_runLife_take, hwhile] at hstep
  simpa using List.mem_takeWhile_imp hstep

theorem length_le_firstRefused {impl : Implementation σ} {early operations : List Operation}
    (hearly : impl.Accepts early) (hbegin : early <+: operations) :
    early.length ≤ impl.firstRefused operations := by
  obtain ⟨late, rfl⟩ := hbegin
  have hnone : ((impl.runLife early).answer.findIdx fun step => step.outcome.isRefused) =
      (impl.runLife early).answer.length := List.findIdx_eq_length.2 hearly
  rw [firstRefused, answer_runLife_append, List.findIdx_append, hnone,
    if_neg (Nat.lt_irrefl _), length_runLife]
  exact Nat.le_add_left _ _

end Implementation

namespace Tracked

theorem accepted_run_iff {handle : Tracked} {operations : List Operation} :
    (∀ step ∈ (Implementation.tracked.run operations handle).answer,
        step.outcome.isRefused = false) ↔
      ∃ last, handle.state.Leads operations last := by
  induction operations generalizing handle with
  | nil => simpa using ⟨handle.state, .nil handle.state⟩
  | cons operation rest ih =>
      rw [Implementation.run_cons, Implementation.perform_tracked, List.forall_mem_cons, ih]
      cases htable : handle.state.transition operation with
      | ok next =>
          rw [call_of_ok htable]
          simp [State.Leads.cons_iff, htable]
      | error refusal =>
          rw [call_of_error htable]
          simp [State.Leads.cons_iff, htable, Outcome.isRefused]

theorem accepts_iff {operations : List Operation} :
    Implementation.tracked.Accepts operations ↔ ∃ last, State.initial.Leads operations last :=
  accepted_run_iff

theorem state_call (handle : Tracked) (operation : Operation) :
    (handle.call operation).handle.state = handle.state.after operation := by
  unfold State.after
  cases htable : handle.state.transition operation with
  | ok next => rw [call_of_ok htable]
  | error refusal => rw [call_of_error htable]

theorem state_run (handle : Tracked) (operations : List Operation) :
    (Implementation.tracked.run operations handle).handle.state =
      handle.state.afterAll operations := by
  induction operations generalizing handle with
  | nil => rfl
  | cons operation rest ih =>
      rw [Implementation.run_cons, Implementation.perform_tracked, State.afterAll_cons,
        ← state_call]
      exact ih _

theorem state_reached (operations : List Operation) :
    (Implementation.tracked.reached operations).state = State.initial.afterAll operations :=
  state_run .new operations

end Tracked

end HandleProtocol
