import HandleProtocol.Proofs.Contract.Agreement

/-!
# What the contracts cover

Together the contracts fix what an implementation makes of every operation in
every state, with two exceptions: opening an open handle and reading a readable
one.  There a handle may do as it likes and still meets all of them.
-/

namespace HandleProtocol

/-- The operations that take a fresh handle to a state. -/
def State.path : State → List Operation
  | .closed => []
  | .open => [.open]
  | .readable => [.open, .read]

namespace Contract

variable {σ : Type}

def Met (impl : Implementation σ) : Prop :=
  ∀ contract : Contract, (contract.test impl).answer = .ok ()

/-! ## What is fixed -/

theorem Met.answer_eq {impl : Implementation σ} (hmet : Met impl) (hplain : impl.Plain)
    {contract : Contract} (h : contract ≠ .closeClearsPayload) :
    (impl.runLife contract.operations).answer =
      (Implementation.tracked.runLife contract.operations).answer :=
  (test_eq_ok_iff_answer_eq h hplain).1 (hmet contract)

/-- The contract that says what an operation of a state comes to, if one does. -/
def covering? : State → Operation → Option Contract
  | .closed, .open => some .fullLifecycle
  | .closed, .read => some .readBeforeOpenIsRefused
  | .closed, .getData => some .freshHandleHasNoData
  | .closed, .close => some .closeFreshHandleIsRefused
  | .open, .open => none
  | .open, .read => some .fullLifecycle
  | .open, .getData => some .getDataBeforeReadIsRefused
  | .open, .close => some .doubleCloseIsRefused
  | .readable, .open => some .refusedOperationChangesNothing
  | .readable, .read => none
  | .readable, .getData => some .fullLifecycle
  | .readable, .close => some .closeClearsPayload

theorem isPrefix_of_covering? {state : State} {operation : Operation} {contract : Contract}
    (h : covering? state operation = some contract) :
    state.path ++ [operation] <+: contract.operations := by
  cases state <;> cases operation <;> cases h <;> decide

theorem eq_of_covering?_eq_none {state : State} {operation : Operation}
    (h : covering? state operation = none) :
    (state, operation) = (.open, .open) ∨ (state, operation) = (.readable, .read) := by
  cases state <;> cases operation <;> simp_all [covering?]

theorem eq_of_covering?_eq_closeClearsPayload {state : State} {operation : Operation}
    (h : covering? state operation = some .closeClearsPayload) :
    state = .readable ∧ operation = .close := by
  cases state <;> cases operation <;> simp_all [covering?]

/-- A close hands nothing over, so one that is not refused is done. -/
theorem perform_close_eq_done {impl : Implementation σ} (hplain : impl.Plain) {handle : σ}
    (h : (impl.perform .close handle).answer.isRefused = false) :
    (impl.perform .close handle).answer = .done := by
  rw [hplain] at h ⊢
  simp only [dispatch, Reply.answer_map] at h ⊢
  cases hanswer : (impl.close handle).answer with
  | ok _ => rfl
  | error refusal =>
      rw [hanswer] at h
      cases h

/-- The close of a readable handle is in one contract only, as a step that
prepares the checks after it. -/
theorem Met.close_readable {impl : Implementation σ} (hmet : Met impl)
    (hplain : impl.Plain) :
    impl.outcomeAfter [.open, .read] .close = .done := by
  have hchecks := test_eq_ok_iff.1 (hmet .closeClearsPayload)
  rw [checks, Check.runAll_cons_eq_ok_iff, Check.runAll_cons_eq_ok_iff,
    Check.runAll_cons_eq_ok_iff] at hchecks
  obtain ⟨-, -, hclose, -⟩ := hchecks
  exact perform_close_eq_done hplain (Check.run_prepare_eq_ok_iff.1 hclose)

theorem Met.outcomeAfter_path {impl : Implementation σ} (hmet : Met impl)
    (hplain : impl.Plain) {state : State} {operation : Operation}
    (hopen : (state, operation) ≠ (.open, .open))
    (hread : (state, operation) ≠ (.readable, .read)) :
    impl.outcomeAfter state.path operation =
      Implementation.tracked.outcomeAfter state.path operation := by
  cases hcover : covering? state operation with
  | none =>
      rcases eq_of_covering?_eq_none hcover with h | h
      · exact absurd h hopen
      · exact absurd h hread
  | some contract =>
      by_cases hcontract : contract = .closeClearsPayload
      · rw [hcontract] at hcover
        obtain ⟨rfl, rfl⟩ := eq_of_covering?_eq_closeClearsPayload hcover
        exact hmet.close_readable hplain
      · exact Implementation.outcomeAfter_eq_of_isPrefix (hmet.answer_eq hplain hcontract)
          (isPrefix_of_covering? hcover)

end Contract

/-! ## What is left open -/

/-- A tracked handle, except that an open one may be opened and a readable one
read again, with answers that are given beforehand and without any effect. -/
def Implementation.lax (opened : Except Refusal Unit) (reread : Except Refusal Payload) :
    Implementation Tracked where
  create := .new
  «open» := fun handle =>
    if handle.state = .open then ⟨opened, handle, []⟩ else Tracked.open handle
  read := fun handle =>
    if handle.state = .readable then ⟨reread, handle, []⟩ else Tracked.read handle
  getData := Tracked.getData
  close := Tracked.close
  stored := Tracked.stored
  release := Tracked.release

theorem Implementation.plain_lax (opened : Except Refusal Unit)
    (reread : Except Refusal Payload) : (lax opened reread).Plain := rfl

namespace Contract

theorem met_lax (opened : Except Refusal Unit) (reread : Except Refusal Payload) :
    Met (.lax opened reread) := by
  intro contract
  cases contract <;> rfl

/--
The contracts cover the lifecycle but for two gaps.  A plain implementation that
meets them all comes to the same outcome as the tracked handle on every operation in
every state, an open of an open handle and a read of a readable one excepted;
and there it may come to any outcome that the operation has.
-/
theorem contracts_cover_exactly :
    (∀ (σ : Type) (impl : Implementation σ), impl.Plain → Met impl →
      ∀ (state : State) (operation : Operation), (state, operation) ≠ (.open, .open) →
        (state, operation) ≠ (.readable, .read) →
          impl.lastOutcome? (state.path ++ [operation]) =
            Implementation.tracked.lastOutcome? (state.path ++ [operation])) ∧
      (∀ answer : Except Refusal Unit,
        ∃ (σ : Type) (impl : Implementation σ), impl.Plain ∧ Met impl ∧
          impl.lastOutcome? (State.path .open ++ [.open]) = some (.ofDone answer)) ∧
      ∀ answer : Except Refusal Payload,
        ∃ (σ : Type) (impl : Implementation σ), impl.Plain ∧ Met impl ∧
          impl.lastOutcome? (State.path .readable ++ [.read]) = some (.ofData answer) := by
  refine ⟨?_, ?_, ?_⟩
  · intro σ impl hplain hmet state operation hopen hread
    rw [Implementation.lastOutcome?_concat, Implementation.lastOutcome?_concat,
      hmet.outcomeAfter_path hplain hopen hread]
  · intro answer
    refine ⟨Tracked, .lax answer (.ok .sentinel), Implementation.plain_lax _ _, met_lax _ _, ?_⟩
    rw [Implementation.lastOutcome?_concat]
    rfl
  · intro answer
    refine ⟨Tracked, .lax (.ok ()) answer, Implementation.plain_lax _ _, met_lax _ _, ?_⟩
    rw [Implementation.lastOutcome?_concat]
    rfl

/-- A handle that may be opened twice and read twice still closes as it should. -/
theorem contracts_cover_close_of_lax :
    let impl := Implementation.lax (.error .alreadyClosed) (.ok ⟨7⟩)
    impl.Plain ∧ Met impl ∧ (State.readable, Operation.close) ≠ (.open, .open) ∧
      (State.readable, Operation.close) ≠ (.readable, .read) ∧
      impl.lastOutcome? [.open, .read, .close] =
        Implementation.tracked.lastOutcome? [.open, .read, .close] :=
  ⟨Implementation.plain_lax _ _, met_lax _ _, by decide, by decide,
    contracts_cover_exactly.1 _ _ (Implementation.plain_lax _ _) (met_lax _ _) .readable .close
      (by decide) (by decide)⟩

end Contract

end HandleProtocol
