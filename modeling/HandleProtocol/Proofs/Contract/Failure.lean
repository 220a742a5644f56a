import HandleProtocol.Proofs.Contract.Agreement

/-!
# Where a contract fails

A contract fails at the first check that does not admit what it sees.  What a check sees
is decided by what the checks before it did to a fresh handle, and the report is about
that check and what it saw.
-/

namespace HandleProtocol

namespace Check

variable {σ : Type} {impl : Implementation σ}

/-- What a check looks at: the outcome of its operation, or the payload inside. -/
def seen (impl : Implementation σ) (handle : σ) : Check → Outcome ⊕ Payload
  | .expect operation _ => .inl (impl.perform operation handle).answer
  | .query _ => .inl (.ofData (impl.getData handle).answer)
  | .prepare operation => .inl (impl.perform operation handle).answer
  | .cleared => .inr (impl.stored handle)

def Admits : Check → Outcome ⊕ Payload → Prop
  | .expect _ expected, .inl actual => actual = expected
  | .query expected, .inl actual => actual = expected
  | .prepare _, .inl actual => actual.isRefused = false
  | .cleared, .inr stored => stored = .empty
  | _, _ => False

/-- What a check does to the handle, whether it fails or not. -/
def follow (impl : Implementation σ) (handle : σ) : Check → σ
  | .expect operation _ => (impl.perform operation handle).handle
  | .query _ => (impl.getData handle).handle
  | .prepare operation => (impl.perform operation handle).handle
  | .cleared => handle

/-- The handle that checks leave behind if none of them fails. -/
def leave (impl : Implementation σ) (checks : List Check) (handle : σ) : σ :=
  checks.foldl (follow impl) handle

theorem handle_run_eq (check : Check) (handle : σ) :
    (check.run impl handle).handle = check.follow impl handle := by
  cases check with
  | cleared =>
      simp only [run]
      split <;> rfl
  | _ => rfl

theorem leave_cons (check : Check) (rest : List Check) (handle : σ) :
    leave impl (check :: rest) handle = leave impl rest (check.run impl handle).handle := by
  rw [handle_run_eq]
  rfl

theorem run_eq_ok_iff {check : Check} {handle : σ} :
    (check.run impl handle).answer = .ok () ↔ check.Admits (check.seen impl handle) := by
  cases check with
  | expect operation expected => exact compare_eq_ok_iff
  | query expected => exact compare_eq_ok_iff
  | prepare operation => simp [run, seen, Admits]
  | cleared =>
      simp only [run, seen, Admits, ← Payload.isEmpty_iff]
      split <;> simp_all

end Check

namespace Finding

/-- The check that found it, where a query looks like the check of an operation. -/
def check : Finding → Check
  | .unexpected operation _ expected => .expect operation expected
  | .unprepared operation _ => .prepare operation
  | .uncleared _ => .cleared

/-- What the check saw. -/
def seen : Finding → Outcome ⊕ Payload
  | .unexpected _ actual _ => .inl actual
  | .unprepared _ actual => .inl actual
  | .uncleared stored => .inr stored

end Finding

namespace Check

variable {σ : Type} {impl : Implementation σ}

/-- The check as its finding tells it. -/
def told : Check → Check
  | .expect operation expected => .expect operation expected
  | .query expected => .expect .getData expected
  | .prepare operation => .prepare operation
  | .cleared => .cleared

theorem eq_of_run_eq_error {check : Check} {handle : σ} {finding : Finding}
    (h : (check.run impl handle).answer = .error finding) :
    finding.check = check.told ∧ finding.seen = check.seen impl handle := by
  cases check with
  | expect operation expected =>
      rw [compare_eq_error h]
      exact ⟨rfl, rfl⟩
  | query expected =>
      rw [compare_eq_error h]
      exact ⟨rfl, rfl⟩
  | prepare operation =>
      simp only [run, Reply.answer_map] at h
      split at h
      · cases h
        exact ⟨rfl, rfl⟩
      · cases h
  | cleared =>
      simp only [run] at h
      split at h
      · cases h
      · cases h
        exact ⟨rfl, rfl⟩

/-! ## The first check that fails -/

/-- Of checks that are made in a row, the first on this handle, the one at this position
is the first that does not admit what it sees, and it sees this. -/
structure FailsAt (impl : Implementation σ) (checks : List Check) (handle : σ)
    (position : Nat) (sight : Outcome ⊕ Payload) : Prop where
  fails : ∃ check, checks[position]? = some check ∧
    check.seen impl (leave impl (checks.take position) handle) = sight ∧ ¬ check.Admits sight
  earlier : ∀ k < position, ∀ check, checks[k]? = some check →
    check.Admits (check.seen impl (leave impl (checks.take k) handle))

variable {first : Check} {rest : List Check} {handle : σ}

theorem failsAt_zero (h : ¬ first.Admits (first.seen impl handle)) :
    FailsAt impl (first :: rest) handle 0 (first.seen impl handle) :=
  ⟨⟨first, rfl, rfl, h⟩, fun k hk => absurd hk (Nat.not_lt_zero k)⟩

theorem FailsAt.succ {position : Nat} {sight : Outcome ⊕ Payload}
    (hfirst : first.Admits (first.seen impl handle))
    (h : FailsAt impl rest (first.run impl handle).handle position sight) :
    FailsAt impl (first :: rest) handle (position + 1) sight := by
  obtain ⟨check, hcheck, hsight, hfails⟩ := h.fails
  refine ⟨⟨check, hcheck, ?_, hfails⟩, ?_⟩
  · rw [List.take_succ_cons, leave_cons, hsight]
  · intro k hk earlier hearlier
    cases k with
    | zero =>
        cases hearlier
        exact hfirst
    | succ k =>
        rw [List.take_succ_cons, leave_cons]
        exact h.earlier k (by omega) earlier hearlier

/-- What is reported is the position of the first check that fails, and what it saw. -/
theorem failsAt_of_runAll_eq_error {checks : List Check} {position : Nat}
    {found : Nat × Finding} (h : (runAll impl position checks handle).answer = .error found) :
    ∃ k, found.1 = position + k ∧ (checks.map told)[k]? = some found.2.check ∧
      FailsAt impl checks handle k found.2.seen := by
  induction checks generalizing position handle with
  | nil => cases h
  | cons first rest ih =>
      cases hrun : first.run impl handle with
      | mk answer left events =>
          cases answer with
          | error finding =>
              rw [runAll_cons_of_error hrun] at h
              cases h
              obtain ⟨hcheck, hseen⟩ := eq_of_run_eq_error (by rw [hrun])
              refine ⟨0, rfl, ?_, ?_⟩
              · simp [hcheck]
              · rw [hseen]
                apply failsAt_zero
                rw [← run_eq_ok_iff, hrun]
                simp
          | ok _ =>
              rw [runAll_cons_of_ok hrun] at h
              obtain ⟨k, hposition, hcheck, hfails⟩ := ih h
              have hadmits : first.Admits (first.seen impl handle) := by
                rw [← run_eq_ok_iff, hrun]
              refine ⟨k + 1, by omega, hcheck, FailsAt.succ hadmits ?_⟩
              rw [hrun]
              exact hfails

end Check

/-! ## The failing check of a contract -/

namespace Contract

variable {σ : Type} {impl : Implementation σ}

/-- Held to the contract, a fresh handle fails at this check, which sees this. -/
def FailsAt (contract : Contract) (impl : Implementation σ) (position : Nat)
    (sight : Outcome ⊕ Payload) : Prop :=
  Check.FailsAt impl contract.checks impl.create position sight

theorem failsAt_of_test_eq_error {contract : Contract} {breach : Breach}
    (h : (contract.test impl).answer = .error breach) :
    breach.contract = contract ∧
      (contract.checks.map Check.told)[breach.position]? = some breach.finding.check ∧
      contract.FailsAt impl breach.position breach.finding.seen := by
  cases hanswer : (Check.runAll impl 0 contract.checks impl.create).answer with
  | ok _ => simp [test_eq, hanswer, Except.mapError] at h
  | error found =>
      simp only [test_eq, hanswer, Except.mapError, Except.error.injEq] at h
      subst h
      obtain ⟨k, hposition, hcheck, hfails⟩ := Check.failsAt_of_runAll_eq_error hanswer
      rw [Nat.zero_add] at hposition
      rw [← hposition] at hcheck hfails
      exact ⟨rfl, hcheck, hfails⟩

end Contract

end HandleProtocol
