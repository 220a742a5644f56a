import HandleProtocol.Contract
import HandleProtocol.Proofs.Difference.Basic

/-!
# Checks in a row

How a list of checks goes, check by check.  Where each check expects one outcome,
the list passes exactly if there is no difference between the outcomes expected
and the outcomes of a run; otherwise it stops at the first difference, and the
handle has carried out the operations up to there and no others.
-/

namespace HandleProtocol

namespace Check

variable {σ : Type} {impl : Implementation σ}

theorem runAll_cons_of_ok {check : Check} {rest : List Check} {position : Nat}
    {handle left : σ} {events : List Event}
    (h : check.run impl handle = ⟨.ok (), left, events⟩) :
    runAll impl position (check :: rest) handle =
      let later := runAll impl (position + 1) rest left
      ⟨later.answer, later.handle, events ++ later.events⟩ := by
  rw [runAll]
  apply Call.bind_of_ok
  rw [Call.mapError, h]
  rfl

theorem runAll_cons_of_error {check : Check} {rest : List Check} {position : Nat}
    {handle left : σ} {finding : Finding} {events : List Event}
    (h : check.run impl handle = ⟨.error finding, left, events⟩) :
    runAll impl position (check :: rest) handle =
      ⟨.error (position, finding), left, events⟩ := by
  rw [runAll]
  apply Call.bind_of_error
  rw [Call.mapError, h]
  rfl

theorem run_expect_of_eq {operation : Operation} {expected : Outcome} {handle : σ}
    (h : (impl.perform operation handle).answer = expected) :
    (expect operation expected).run impl handle =
      ⟨.ok (), (impl.perform operation handle).handle,
        (impl.perform operation handle).events⟩ := by
  simp only [run, Reply.map, compare, if_pos h]

theorem run_expect_of_ne {operation : Operation} {expected : Outcome} {handle : σ}
    (h : (impl.perform operation handle).answer ≠ expected) :
    (expect operation expected).run impl handle =
      ⟨.error (.unexpected operation (impl.perform operation handle).answer expected),
        (impl.perform operation handle).handle, (impl.perform operation handle).events⟩ := by
  simp only [run, Reply.map, compare, if_neg h]

theorem compare_eq_ok_iff {operation : Operation} {expected actual : Outcome} :
    compare operation expected actual = .ok () ↔ actual = expected := by
  simp [compare]

theorem compare_eq_error {operation : Operation} {expected actual : Outcome} {finding : Finding}
    (h : compare operation expected actual = .error finding) :
    finding = .unexpected operation actual expected := by
  simp only [compare] at h
  split at h
  · cases h
  · cases h
    rfl

/-- A plain implementation makes no difference between the two ways to ask for the data. -/
theorem run_query (hplain : impl.Plain) (expected : Outcome) :
    (query expected).run impl = (expect .getData expected).run impl := by
  funext handle
  simp only [run]
  rw [hplain]
  rfl

/-- A list of checks passes if the first does and the others do on the handle it leaves. -/
theorem runAll_cons_eq_ok_iff {check : Check} {rest : List Check} {position : Nat}
    {handle : σ} :
    (runAll impl position (check :: rest) handle).answer = .ok () ↔
      (check.run impl handle).answer = .ok () ∧
        (runAll impl (position + 1) rest (check.run impl handle).handle).answer = .ok () := by
  cases hrun : check.run impl handle with
  | mk answer left events =>
      cases answer with
      | ok _ => simp [runAll_cons_of_ok hrun]
      | error finding => simp [runAll_cons_of_error hrun]

theorem run_prepare_eq_ok_iff {operation : Operation} {handle : σ} :
    ((prepare operation).run impl handle).answer = .ok () ↔
      (impl.perform operation handle).answer.isRefused = false := by
  simp only [run, Reply.answer_map]
  split <;> simp_all

/-! ## Checks in two parts -/

theorem runAll_append_of_ok {first second : List Check} {position : Nat} {handle left : σ}
    {events : List Event} (h : runAll impl position first handle = ⟨.ok (), left, events⟩) :
    runAll impl position (first ++ second) handle =
      let later := runAll impl (position + first.length) second left
      ⟨later.answer, later.handle, events ++ later.events⟩ := by
  induction first generalizing position handle events with
  | nil =>
      cases h
      rfl
  | cons check rest ih =>
      cases hrun : check.run impl handle with
      | mk answer next own =>
          cases answer with
          | error finding =>
              rw [runAll_cons_of_error hrun] at h
              cases h
          | ok _ =>
              rw [runAll_cons_of_ok hrun] at h
              injection h with hanswer hleft hevents
              have hrest : runAll impl (position + 1) rest next =
                  ⟨.ok (), left, (runAll impl (position + 1) rest next).events⟩ := by
                rw [← hanswer, ← hleft]
              rw [List.cons_append, runAll_cons_of_ok hrun, ih hrest, ← hevents,
                List.length_cons, Nat.add_right_comm, Nat.add_assoc]
              simp only [List.append_assoc]

theorem runAll_append_of_error {first second : List Check} {position : Nat}
    {handle left : σ} {found : Nat × Finding} {events : List Event}
    (h : runAll impl position first handle = ⟨.error found, left, events⟩) :
    runAll impl position (first ++ second) handle = ⟨.error found, left, events⟩ := by
  induction first generalizing position handle events with
  | nil => cases h
  | cons check rest ih =>
      cases hrun : check.run impl handle with
      | mk answer next own =>
          cases answer with
          | error finding =>
              rw [runAll_cons_of_error hrun] at h
              rw [List.cons_append, runAll_cons_of_error hrun, h]
          | ok _ =>
              rw [runAll_cons_of_ok hrun] at h
              injection h with hanswer hleft hevents
              have hrest : runAll impl (position + 1) rest next =
                  ⟨.error found, left, (runAll impl (position + 1) rest next).events⟩ := by
                rw [← hanswer, ← hleft]
              rw [List.cons_append, runAll_cons_of_ok hrun, ih hrest, ← hevents]

/-! ## Checks that prepare the others -/

theorem run_prepare_of_done {operation : Operation} {handle : σ}
    (h : (impl.perform operation handle).answer.isRefused = false) :
    (prepare operation).run impl handle =
      ⟨.ok (), (impl.perform operation handle).handle,
        (impl.perform operation handle).events⟩ := by
  simp [run, Reply.map, h]

theorem run_prepare_of_refused {operation : Operation} {handle : σ}
    (h : (impl.perform operation handle).answer.isRefused = true) :
    (prepare operation).run impl handle =
      ⟨.error (.unprepared operation (impl.perform operation handle).answer),
        (impl.perform operation handle).handle, (impl.perform operation handle).events⟩ := by
  simp [run, Reply.map, h]

theorem runAll_prepare_of_done {operations : List Operation} {position : Nat} {handle : σ}
    (h : ∀ step ∈ (impl.run operations handle).answer, step.outcome.isRefused = false) :
    runAll impl position (operations.map .prepare) handle =
      let ran := impl.run operations handle
      ⟨.ok (), ran.handle, ran.events⟩ := by
  induction operations generalizing position handle with
  | nil => rfl
  | cons operation rest ih =>
      rw [Implementation.run_cons, List.forall_mem_cons] at h
      rw [List.map_cons, Implementation.run_cons, runAll_cons_of_ok (run_prepare_of_done h.1),
        ih h.2]

/-- The first refusal ends it. -/
theorem runAll_prepare_of_refused (position : Nat) {operations : List Operation} {k : Nat}
    {handle : σ} {step : Step} (hstep : (impl.run operations handle).answer[k]? = some step)
    (hrefused : step.outcome.isRefused = true)
    (hbefore : ∀ j < k, ∀ earlier, (impl.run operations handle).answer[j]? = some earlier →
      earlier.outcome.isRefused = false) :
    runAll impl position (operations.map .prepare) handle =
      let ran := impl.run (operations.take (k + 1)) handle
      ⟨.error (position + k, .unprepared step.operation step.outcome), ran.handle,
        ran.events⟩ := by
  induction operations generalizing position handle k with
  | nil => cases hstep
  | cons operation rest ih =>
      rw [Implementation.run_cons] at hstep hbefore
      rw [List.map_cons, List.take_succ_cons, Implementation.run_cons]
      cases k with
      | zero =>
          cases hstep
          rw [runAll_cons_of_error (run_prepare_of_refused hrefused)]
          simp
      | succ k =>
          have hfirst := hbefore 0 (Nat.succ_pos k) _ rfl
          have hlater := ih (position + 1) hstep
            fun j hj => hbefore (j + 1) (Nat.succ_lt_succ hj)
          rw [runAll_cons_of_ok (run_prepare_of_done hfirst), hlater, Nat.add_assoc,
            Nat.add_comm 1]

theorem run_cleared_of_eq {handle : σ} (h : impl.stored handle = .empty) :
    cleared.run impl handle = ⟨.ok (), handle, []⟩ := by
  simp [run, h]

theorem run_cleared_of_ne {handle : σ} (h : impl.stored handle ≠ .empty) :
    cleared.run impl handle = ⟨.error (.uncleared (impl.stored handle)), handle, []⟩ := by
  simp [run, Payload.isEmpty_iff, h]

/-! ## Checks that each expect one outcome -/

/-- The check that a step comes out as it did. -/
def ofStep (step : Step) : Check := .expect step.operation step.outcome

theorem runAll_ofStep_of_nil (script : List Step) {position : Nat} {handle : σ}
    (h : Difference.between position script
      (impl.run (script.map Step.operation) handle).answer = []) :
    runAll impl position (script.map ofStep) handle =
      let ran := impl.run (script.map Step.operation) handle
      ⟨.ok (), ran.handle, ran.events⟩ := by
  induction script generalizing position handle with
  | nil => rfl
  | cons step script ih =>
      rw [List.map_cons, Implementation.run_cons] at h
      by_cases heq : step.outcome = (impl.perform step.operation handle).answer
      · rw [Difference.between_cons_of_eq _ _ heq] at h
        rw [List.map_cons, List.map_cons, Implementation.run_cons, ofStep,
          runAll_cons_of_ok (run_expect_of_eq heq.symm), ih h]
      · rw [Difference.between_cons_of_ne _ _ heq] at h
        cases h

theorem runAll_ofStep_of_cons (script : List Step) {position : Nat} {handle : σ}
    {first : Difference} {others : List Difference}
    (h : Difference.between position script
      (impl.run (script.map Step.operation) handle).answer = first :: others) :
    ∃ k, first.index = position + k ∧
      runAll impl position (script.map ofStep) handle =
        let ran := impl.run ((script.map Step.operation).take (k + 1)) handle
        ⟨.error (first.index,
          .unexpected first.operation first.actual first.expected), ran.handle, ran.events⟩ := by
  induction script generalizing position handle with
  | nil => cases h
  | cons step script ih =>
      rw [List.map_cons, Implementation.run_cons] at h
      rw [List.map_cons, List.map_cons, ofStep]
      by_cases heq : step.outcome = (impl.perform step.operation handle).answer
      · rw [Difference.between_cons_of_eq _ _ heq] at h
        obtain ⟨k, hindex, hlater⟩ := ih h
        refine ⟨k + 1, by omega, ?_⟩
        rw [runAll_cons_of_ok (run_expect_of_eq heq.symm), hlater, List.take_succ_cons,
          Implementation.run_cons]
      · rw [Difference.between_cons_of_ne _ _ heq] at h
        obtain ⟨rfl, -⟩ := List.cons.inj h
        refine ⟨0, rfl, ?_⟩
        rw [runAll_cons_of_error (run_expect_of_ne (Ne.symm heq)), List.take_succ_cons,
          List.take_zero, Implementation.run_cons]
        simp

end Check

end HandleProtocol
