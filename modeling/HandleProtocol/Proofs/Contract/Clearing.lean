import HandleProtocol.Handle.Scripted
import HandleProtocol.Proofs.Contract.Agreement
import Mathlib.Order.Lattice.Nat

/-!
# The reset law

`closeClearsPayload` opens, reads and closes a handle, looks at the payload that is
left inside, and asks for data on the closed handle and on one that was opened again.
The setup only has to go through; the steps after the look have to be those of the
tracked handle.  The first of these checks that fails decides, and the handle is asked
for nothing more.
-/

namespace HandleProtocol.Contract

namespace Clearing

variable {σ τ : Type}

def setUp : List Operation := [.open, .read, .close]

/-- The operations after the look inside. -/
def sequel : List Operation := [.getData, .open, .getData]

def steps (impl : Implementation σ) : List Step := (impl.runLife (setUp ++ sequel)).answer

/-- The payload inside when the setup is done. -/
def left (impl : Implementation σ) : Payload := impl.stored (impl.reached setUp)

/-- Where the setup is refused. -/
def refusedAt (impl : Implementation σ) : Set Nat :=
  {k | k < 3 ∧ ∃ step, (steps impl)[k]? = some step ∧ step.outcome.isRefused = true}

/-- Where the outcome after the setup is not that of the tracked handle. -/
def brokenAt (impl : Implementation σ) : Set Nat :=
  {k | 3 ≤ k ∧
    (steps .tracked)[k]?.map Step.outcome ≠ (steps impl)[k]?.map Step.outcome}

/-- The contract's verdict, and the handle that it leaves. -/
def Ends (impl : Implementation σ) (verdict : Except Breach Unit)
    (operations : List Operation) : Prop :=
  (closeClearsPayload.test impl).answer = verdict ∧
    (closeClearsPayload.test impl).handle = impl.reached operations

/-- The two handles answer alike, but for the payload that the setup reads. -/
structure AlikeButRead (impl : Implementation σ) (other : Implementation τ) : Prop where
  read : ∃ payload payload', (steps impl)[1]? = some ⟨.read, .data payload⟩ ∧
    (steps other)[1]? = some ⟨.read, .data payload'⟩
  others : ∀ k : Nat, k ≠ 1 → (steps impl)[k]? = (steps other)[k]?
  stored : left impl = left other

/-! ## The checks -/

theorem checks_eq :
    closeClearsPayload.checks =
      setUp.map .prepare ++ .cleared :: ((steps .tracked).drop 3).map Check.ofStep := rfl

variable {impl : Implementation σ}

theorem steps_take (impl : Implementation σ) :
    (impl.run setUp impl.create).answer = (steps impl).take 3 :=
  impl.answer_runLife_take (setUp ++ sequel) 3

theorem steps_drop (impl : Implementation σ) :
    (steps impl).drop 3 = (impl.run sequel (impl.reached setUp)).answer := by
  have hlength : (impl.runLife setUp).answer.length = 3 := impl.length_runLife setUp
  rw [steps, Implementation.answer_runLife_append, List.drop_left' hlength]

theorem getElem?_setUp {k : Nat} (h : k < 3) :
    (impl.run setUp impl.create).answer[k]? = (steps impl)[k]? := by
  rw [steps_take, List.getElem?_take_of_lt h]

theorem not_refused_of_lt {k j : Nat} (hleast : IsLeast (refusedAt impl) k) (hj : j < k)
    {step : Step} (hstep : (steps impl)[j]? = some step) : step.outcome.isRefused = false := by
  have hlt := hleast.1.1
  by_contra hrefused
  have hle := hleast.2 ⟨by omega, step, hstep, by simpa using hrefused⟩
  omega

theorem ends_of_refused {k : Nat} {step : Step} (hleast : IsLeast (refusedAt impl) k)
    (hstep : (steps impl)[k]? = some step) :
    Ends impl (.error ⟨.closeClearsPayload, k, .unprepared step.operation step.outcome⟩)
      ((setUp ++ sequel).take (k + 1)) := by
  obtain ⟨hlt, other, hother, hrefused⟩ := hleast.1
  rw [hstep] at hother
  cases hother
  have hchecked := Check.runAll_prepare_of_refused 0
    ((getElem?_setUp hlt).trans hstep) hrefused fun j hj earlier hearlier =>
      not_refused_of_lt hleast hj ((getElem?_setUp (hj.trans hlt)).symm.trans hearlier)
  rw [Nat.zero_add] at hchecked
  rw [Ends, test_eq, checks_eq, Check.runAll_append_of_error hchecked,
    List.take_append_of_le_length hlt]
  exact ⟨rfl, rfl⟩

theorem refusedAt_eq_empty_iff :
    refusedAt impl = ∅ ↔ ∀ step ∈ (steps impl).take 3, step.outcome.isRefused = false := by
  rw [Set.eq_empty_iff_forall_notMem]
  constructor
  · intro h step hmem
    obtain ⟨k, hk⟩ := List.mem_iff_getElem?.1 hmem
    rw [List.getElem?_take] at hk
    split at hk
    case isFalse => cases hk
    case isTrue hlt =>
      by_contra hrefused
      exact h k ⟨hlt, step, hk, by simpa using hrefused⟩
  · rintro h k ⟨hlt, step, hstep, hrefused⟩
    rw [← List.getElem?_take_of_lt hlt] at hstep
    rw [h step (List.mem_of_getElem? hstep)] at hrefused
    cases hrefused

theorem runAll_setUp (hprepared : refusedAt impl = ∅) :
    Check.runAll impl 0 (setUp.map .prepare) impl.create =
      ⟨.ok (), impl.reached setUp, (impl.run setUp impl.create).events⟩ := by
  apply Check.runAll_prepare_of_done
  rw [steps_take]
  exact refusedAt_eq_empty_iff.1 hprepared

theorem ends_of_left (hprepared : refusedAt impl = ∅) (hleft : left impl ≠ .empty) :
    Ends impl (.error ⟨.closeClearsPayload, 3, .uncleared (left impl)⟩) setUp := by
  rw [Ends, test_eq, checks_eq, Check.runAll_append_of_ok (runAll_setUp hprepared),
    Check.runAll_cons_of_error (Check.run_cleared_of_ne hleft)]
  exact ⟨rfl, rfl⟩

/-- Once the payload is gone, the rest is up to the sequel. -/
theorem ends_of_sequel (hprepared : refusedAt impl = ∅) (hleft : left impl = .empty)
    {verdict : Except (Nat × Finding) Unit} {operations : List Operation}
    {events : List Event}
    (h : Check.runAll impl 4 (((steps .tracked).drop 3).map Check.ofStep)
      (impl.reached setUp) =
        ⟨verdict, (impl.run operations (impl.reached setUp)).handle, events⟩) :
    Ends impl (verdict.mapError fun (position, finding) =>
      ⟨closeClearsPayload, position, finding⟩) (setUp ++ operations) := by
  have hlater : Check.runAll impl (0 + (setUp.map Check.prepare).length + 1)
      (((steps .tracked).drop 3).map Check.ofStep) (impl.reached setUp) = _ := h
  rw [Ends, test_eq, checks_eq, Check.runAll_append_of_ok (runAll_setUp hprepared),
    Check.runAll_cons_of_ok (Check.run_cleared_of_eq hleft), hlater]
  exact ⟨rfl, (impl.handle_run_append setUp operations impl.create).symm⟩

theorem operations_sequel :
    ((steps .tracked).drop 3).map Step.operation = sequel := rfl

theorem ends_of_broken {k : Nat} {operation : Operation} {actual expected : Outcome}
    (hprepared : refusedAt impl = ∅) (hleft : left impl = .empty)
    (hleast : IsLeast (brokenAt impl) k)
    (hactual : (steps impl)[k]? = some ⟨operation, actual⟩)
    (hexpected : (steps .tracked)[k]? = some ⟨operation, expected⟩) :
    Ends impl (.error ⟨closeClearsPayload, k + 1, .unexpected operation actual expected⟩)
      ((setUp ++ sequel).take (k + 1)) := by
  obtain ⟨⟨hle, hne⟩, hlower⟩ := hleast
  obtain ⟨i, rfl⟩ := Nat.exists_eq_add_of_le hle
  rw [hactual, hexpected] at hne
  have hsame : ∀ j < i, ((steps .tracked).drop 3)[j]?.map Step.outcome =
      ((steps impl).drop 3)[j]?.map Step.outcome := by
    intro j hj
    rw [List.getElem?_drop, List.getElem?_drop]
    by_contra hdiffers
    have := hlower ⟨Nat.le_add_right 3 j, hdiffers⟩
    omega
  rw [← List.getElem?_drop] at hactual hexpected
  obtain ⟨others, hbetween⟩ := Difference.between_of_first 4 hexpected hactual
    (fun heq => hne (congrArg some heq)) hsame
  rw [steps_drop impl, ← operations_sequel] at hbetween
  obtain ⟨i', hindex, hchecked⟩ := Check.runAll_ofStep_of_cons _ hbetween
  obtain rfl : i = i' := Nat.add_left_cancel hindex
  have hposition : 3 + i + 1 = 4 + i := by omega
  have hasked : (setUp ++ sequel).take (3 + i + 1) = setUp ++ sequel.take (i + 1) := by
    have hlength : 3 + (i + 1) = setUp.length + (i + 1) := rfl
    rw [Nat.add_assoc, hlength, List.take_length_add_append]
  rw [hasked, hposition]
  exact ends_of_sequel hprepared hleft hchecked

theorem ends_of_kept (hprepared : refusedAt impl = ∅) (hleft : left impl = .empty)
    (hkept : brokenAt impl = ∅) : Ends impl (.ok ()) (setUp ++ sequel) := by
  have hsame (k : Nat) : ((steps .tracked).drop 3)[k]?.map Step.outcome =
      ((steps impl).drop 3)[k]?.map Step.outcome := by
    rw [List.getElem?_drop, List.getElem?_drop]
    by_contra hdiffers
    exact Set.eq_empty_iff_forall_notMem.1 hkept (3 + k) ⟨Nat.le_add_right 3 k, hdiffers⟩
  have hbetween := Difference.between_of_same 4 hsame
  rw [steps_drop impl, ← operations_sequel] at hbetween
  exact ends_of_sequel hprepared hleft (Check.runAll_ofStep_of_nil _ hbetween)

/-! ## What the handle is asked for -/

theorem steps_recorded (impl : Implementation σ) : steps impl.recorded = steps impl := by
  rw [steps, Implementation.runLife, Implementation.answer_live, Implementation.run_recorded]
  rfl

theorem left_recorded (impl : Implementation σ) : left impl.recorded = left impl := by
  rw [left, Implementation.reached, Implementation.run_recorded]
  rfl

theorem refusedAt_recorded (impl : Implementation σ) :
    refusedAt impl.recorded = refusedAt impl := by
  rw [refusedAt, steps_recorded]
  rfl

theorem brokenAt_recorded (impl : Implementation σ) :
    brokenAt impl.recorded = brokenAt impl := by
  rw [brokenAt, steps_recorded]
  rfl

/-- The contract fails with this detail, and the handle is asked for these operations
and for no more. -/
def FailsWith (impl : Implementation σ) (detail : String) (asked : List Operation) : Prop :=
  ∃ breach : Breach, breach.contract = closeClearsPayload ∧ breach.finding.message = detail ∧
    (closeClearsPayload.test impl).answer = .error breach ∧
    (closeClearsPayload.test impl.recorded).answer = .error breach ∧
    (closeClearsPayload.test impl.recorded).handle.asked = asked

def Passes (impl : Implementation σ) (asked : List Operation) : Prop :=
  (closeClearsPayload.test impl).answer = .ok () ∧
    (closeClearsPayload.test impl.recorded).answer = .ok () ∧
    (closeClearsPayload.test impl.recorded).handle.asked = asked

theorem Ends.asked {verdict : Except Breach Unit} {operations : List Operation}
    (h : Ends impl.recorded verdict operations) :
    (closeClearsPayload.test impl.recorded).handle.asked = operations := by
  rw [h.2, asked_reached]

theorem failsWith_of_ends {position : Nat} {finding : Finding} {operations : List Operation}
    (h : Ends impl (.error ⟨closeClearsPayload, position, finding⟩) operations)
    (hrecorded : Ends impl.recorded (.error ⟨closeClearsPayload, position, finding⟩)
      operations) :
    FailsWith impl finding.message operations :=
  ⟨_, rfl, rfl, h.1, hrecorded.1, hrecorded.asked⟩

/-! ## The payload that the setup reads -/

variable {other : Implementation τ}

theorem AlikeButRead.refusedAt_eq (h : AlikeButRead impl other) :
    refusedAt other = refusedAt impl := by
  obtain ⟨payload, payload', hread, hread'⟩ := h.read
  ext k
  by_cases hk : k = 1
  · subst hk
    simp [refusedAt, hread, hread', Outcome.isRefused]
  · simp only [refusedAt, Set.mem_ofPred_eq, h.others k hk]

theorem AlikeButRead.brokenAt_eq (h : AlikeButRead impl other) :
    brokenAt other = brokenAt impl := by
  ext k
  by_cases hk : k = 1
  · subst hk
    simp [brokenAt]
  · simp only [brokenAt, Set.mem_ofPred_eq, h.others k hk]

theorem AlikeButRead.ne_one (h : AlikeButRead impl other) {k : Nat}
    (hk : k ∈ refusedAt impl) : k ≠ 1 := by
  rintro rfl
  obtain ⟨-, step, hstep, hrefused⟩ := hk
  obtain ⟨payload, payload', hread, -⟩ := h.read
  rw [hread] at hstep
  cases hstep
  cases hrefused

theorem getElem?_steps (impl : Implementation σ) (k : Nat) :
    (steps impl)[k]? = (setUp ++ sequel)[k]?.map fun operation =>
      ⟨operation, impl.outcomeAfter ((setUp ++ sequel).take k) operation⟩ :=
  impl.getElem?_answer_runLife (setUp ++ sequel) k

theorem exists_of_mem_brokenAt {k : Nat} (h : k ∈ brokenAt impl) :
    ∃ operation actual expected, (steps impl)[k]? = some ⟨operation, actual⟩ ∧
      (steps .tracked)[k]? = some ⟨operation, expected⟩ := by
  have hdiffers := h.2
  rw [getElem?_steps, getElem?_steps] at hdiffers
  rw [getElem?_steps, getElem?_steps]
  cases hoperation : (setUp ++ sequel)[k]? with
  | none =>
      rw [hoperation] at hdiffers
      exact absurd rfl hdiffers
  | some operation => exact ⟨operation, _, _, rfl, rfl⟩

/-- The verdict is the same, since it is decided at the same place. -/
theorem AlikeButRead.answer_eq (h : AlikeButRead impl other) :
    (closeClearsPayload.test other).answer = (closeClearsPayload.test impl).answer := by
  have hrefused := h.refusedAt_eq
  have hbroken := h.brokenAt_eq
  have hleft := h.stored
  rcases (refusedAt impl).eq_empty_or_nonempty with hprepared | hnonempty
  · by_cases hempty : left impl = .empty
    · rcases (brokenAt impl).eq_empty_or_nonempty with hkept | hnonempty
      · have hends := ends_of_kept hprepared hempty hkept
        rw [hleft] at hempty
        rw [← hrefused] at hprepared
        rw [← hbroken] at hkept
        exact (ends_of_kept hprepared hempty hkept).1.trans hends.1.symm
      · have hleast := isLeast_csInf hnonempty
        obtain ⟨operation, actual, expected, hactual, hexpected⟩ :=
          exists_of_mem_brokenAt hleast.1
        have hends := ends_of_broken hprepared hempty hleast hactual hexpected
        have hne : sInf (brokenAt impl) ≠ 1 := by
          have := hleast.1.1
          omega
        rw [hleft] at hempty
        rw [← hrefused] at hprepared
        rw [h.others _ hne] at hactual
        exact (ends_of_broken hprepared hempty (hbroken ▸ hleast) hactual hexpected).1.trans
          hends.1.symm
    · have hends := ends_of_left hprepared hempty
      rw [hleft] at hempty hends
      rw [← hrefused] at hprepared
      exact (ends_of_left hprepared hempty).1.trans hends.1.symm
  · have hleast := isLeast_csInf hnonempty
    obtain ⟨-, step, hstep, -⟩ := hleast.1
    have hends := ends_of_refused hleast hstep
    rw [h.others _ (h.ne_one hleast.1)] at hstep
    exact (ends_of_refused (hrefused ▸ hleast) hstep).1.trans hends.1.symm

/--
The contract decides the reset law, on any handle.  The first refusal in the setup
fails it; else the payload that is left, if there is one; else the first step of the
sequel that is not the tracked handle's; and if there is no such step it passes.  Each
time the handle has been asked for the operations up to there.  Which payload the setup
reads makes no difference.
-/
theorem decides_reset_law (impl : Implementation σ) :
    (∀ k, IsLeast (refusedAt impl) k → ∃ operation outcome,
      (steps impl)[k]? = some ⟨operation, outcome⟩ ∧
        FailsWith impl ("setup step " ++ operation.name ++ " failed with " ++ outcome.inspect)
          ((setUp ++ sequel).take (k + 1))) ∧
      (refusedAt impl = ∅ → left impl ≠ .empty →
        FailsWith impl ("payload " ++ (left impl).text ++ " still stored after close") setUp) ∧
      (refusedAt impl = ∅ → left impl = .empty → ∀ k, IsLeast (brokenAt impl) k →
        ∃ operation actual expected, (steps impl)[k]? = some ⟨operation, actual⟩ ∧
          (steps .tracked)[k]? = some ⟨operation, expected⟩ ∧
          FailsWith impl (operation.name ++ " returned " ++ actual.inspect ++
            ", expected " ++ expected.inspect) ((setUp ++ sequel).take (k + 1))) ∧
      (refusedAt impl = ∅ → left impl = .empty → brokenAt impl = ∅ →
        Passes impl (setUp ++ sequel)) ∧
      ∀ (τ : Type) (other : Implementation τ), AlikeButRead impl other →
        (closeClearsPayload.test other).answer = (closeClearsPayload.test impl).answer := by
  refine ⟨?_, ?_, ?_, ?_, ?_⟩
  · intro k hleast
    obtain ⟨-, step, hstep, -⟩ := hleast.1
    refine ⟨step.operation, step.outcome, hstep, ?_⟩
    apply failsWith_of_ends (ends_of_refused hleast hstep)
    apply ends_of_refused
    · rwa [refusedAt_recorded]
    · rwa [steps_recorded]
  · intro hprepared hleft
    apply failsWith_of_ends (ends_of_left hprepared hleft)
    rw [← refusedAt_recorded] at hprepared
    rw [← left_recorded] at hleft ⊢
    exact ends_of_left hprepared hleft
  · intro hprepared hleft k hleast
    obtain ⟨operation, actual, expected, hactual, hexpected⟩ := exists_of_mem_brokenAt hleast.1
    refine ⟨operation, actual, expected, hactual, hexpected, ?_⟩
    apply failsWith_of_ends (ends_of_broken hprepared hleft hleast hactual hexpected)
    rw [← refusedAt_recorded] at hprepared
    rw [← left_recorded] at hleft
    rw [← brokenAt_recorded] at hleast
    rw [← steps_recorded] at hactual
    exact ends_of_broken hprepared hleft hleast hactual hexpected
  · intro hprepared hleft hkept
    have hends := ends_of_kept hprepared hleft hkept
    rw [← refusedAt_recorded] at hprepared
    rw [← left_recorded] at hleft
    rw [← brokenAt_recorded] at hkept
    have hrecorded := ends_of_kept hprepared hleft hkept
    exact ⟨hends.1, hrecorded.1, hrecorded.asked⟩
  · intro τ other halike
    exact halike.answer_eq

/-- A read that is refused, a payload that is kept, data that is handed out after the
close, and a read of something else, which passes like the tracked handle. -/
theorem decides_reset_law_of_faults :
    let unread := Implementation.tracked.scripted ⟨[⟨1, true, .refused .alreadyClosed⟩], none⟩
    let kept := Implementation.tracked.scripted ⟨[], some ⟨7⟩⟩
    let misread := Implementation.tracked.scripted ⟨[⟨1, true, .data ⟨7⟩⟩], none⟩
    (IsLeast (refusedAt unread) 1 ∧
        FailsWith unread "setup step read failed with Err(AlreadyClosed)" [.open, .read]) ∧
      (refusedAt kept = ∅ ∧ left kept ≠ .empty ∧
        FailsWith kept ("payload " ++ Payload.text ⟨7⟩ ++ " still stored after close")
          setUp) ∧
      (refusedAt .unchecked = ∅ ∧ left .unchecked = .empty ∧ IsLeast (brokenAt .unchecked) 3 ∧
        FailsWith .unchecked ("get data returned " ++ (Outcome.data .empty).inspect ++
          ", expected " ++ (Outcome.refused (.notPermitted .getData .closed)).inspect)
          (setUp ++ [.getData])) ∧
      refusedAt .tracked = ∅ ∧ left .tracked = .empty ∧ brokenAt .tracked = ∅ ∧
      Passes .tracked (setUp ++ sequel) ∧ AlikeButRead .tracked misread ∧
      (closeClearsPayload.test misread).answer = .ok () := by
  intro unread kept misread
  have hunread : IsLeast (refusedAt unread) 1 := by
    refine ⟨⟨by decide, _, rfl, rfl⟩, ?_⟩
    rintro k ⟨-, step, hstep, hrefused⟩
    apply Nat.pos_of_ne_zero
    rintro rfl
    cases hstep
    cases hrefused
  have hkept : refusedAt kept = ∅ := refusedAt_eq_empty_iff.2 (by decide)
  have hfull : left kept ≠ .empty := by decide
  have hunchecked : refusedAt Implementation.unchecked = ∅ :=
    refusedAt_eq_empty_iff.2 (by decide)
  have hbroken : IsLeast (brokenAt Implementation.unchecked) 3 :=
    ⟨⟨Nat.le_refl 3, by decide⟩, fun k hk => hk.1⟩
  have htracked : refusedAt Implementation.tracked = ∅ := refusedAt_eq_empty_iff.2 (by decide)
  have hsound : brokenAt Implementation.tracked = ∅ :=
    Set.eq_empty_iff_forall_notMem.2 fun k hk => hk.2 rfl
  have halike : AlikeButRead Implementation.tracked misread := by
    refine ⟨⟨_, _, rfl, rfl⟩, ?_, rfl⟩
    intro k hk
    cases k with
    | zero => rfl
    | succ k =>
        cases k with
        | zero => exact absurd rfl hk
        | succ k => rfl
  have hpasses := (decides_reset_law .tracked).2.2.2.1 htracked rfl hsound
  refine ⟨⟨hunread, ?_⟩, ⟨hkept, hfull, ?_⟩, ⟨hunchecked, rfl, hbroken, ?_⟩, htracked, rfl,
    hsound, hpasses, halike, ?_⟩
  · obtain ⟨operation, outcome, hstep, hfails⟩ := (decides_reset_law unread).1 1 hunread
    cases hstep
    exact hfails
  · exact (decides_reset_law kept).2.1 hkept hfull
  · obtain ⟨operation, actual, expected, hactual, hexpected, hfails⟩ :=
      (decides_reset_law .unchecked).2.2.1 hunchecked rfl 3 hbroken
    cases hactual
    cases hexpected
    exact hfails
  · rw [(decides_reset_law .tracked).2.2.2.2 _ misread halike]
    exact hpasses.1

end Clearing

end HandleProtocol.Contract
