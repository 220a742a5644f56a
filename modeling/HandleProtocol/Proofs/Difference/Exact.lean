import HandleProtocol.Handle.Tracked
import HandleProtocol.Handle.Unchecked
import HandleProtocol.Proofs.Difference.Append

/-!
# Differences are exact

The differences of two handles are all that is needed to get from the one run to the
other: put into the steps of the reference, they give those of the candidate.  Taken
the other way round they are the same differences, and operations that follow change
none of them.
-/

namespace HandleProtocol

variable {σ τ : Type}

namespace Difference

/-- Put the candidate's outcomes in the place of the reference's. -/
def overwrite (steps : List Step) (found : List Difference) : List Step :=
  found.foldl
    (fun steps difference =>
      steps.modify difference.index fun step => { step with outcome := difference.actual })
    steps

/-- The same difference, seen from the candidate. -/
def swap (difference : Difference) : Difference :=
  { difference with expected := difference.actual, actual := difference.expected }

theorem overwrite_cons (steps : List Step) (difference : Difference)
    (found : List Difference) :
    overwrite steps (difference :: found) =
      overwrite
        (steps.modify difference.index fun step => { step with outcome := difference.actual })
        found := rfl

theorem modify_length_append (written : List Step) (step : Step) (rest : List Step)
    (f : Step → Step) :
    (written ++ step :: rest).modify written.length f = written ++ f step :: rest := by
  induction written with
  | nil => rfl
  | cons first written ih => simpa [List.modify_cons] using ih

/-- The steps before the index are written already. -/
theorem overwrite_between (written : List Step) {expecteds actuals : List Step}
    (h : expecteds.map Step.operation = actuals.map Step.operation) :
    overwrite (written ++ expecteds) (between written.length expecteds actuals) =
      written ++ actuals := by
  induction expecteds generalizing written actuals with
  | nil =>
      rw [List.map_nil, eq_comm, List.map_eq_nil_iff] at h
      rw [h]
      rfl
  | cons expected expecteds ih =>
      cases actuals with
      | nil => cases h
      | cons actual actuals =>
          rw [List.map_cons, List.map_cons, List.cons.injEq] at h
          obtain ⟨hoperation, hrest⟩ := h
          have hlater := ih (written ++ [actual]) hrest
          rw [List.length_append, List.length_singleton, List.append_assoc,
            List.append_assoc, List.singleton_append, List.singleton_append] at hlater
          have hactual : { expected with outcome := actual.outcome } = actual := by
            rw [hoperation]
          by_cases heq : expected.outcome = actual.outcome
          · rw [between_cons_of_eq _ _ heq]
            rw [← heq] at hactual
            rw [show expected = actual from hactual]
            exact hlater
          · rw [between_cons_of_ne _ _ heq, overwrite_cons, modify_length_append, hactual]
            exact hlater

theorem between_swap (index : Nat) {expecteds actuals : List Step}
    (h : expecteds.map Step.operation = actuals.map Step.operation) :
    between index actuals expecteds = (between index expecteds actuals).map swap := by
  induction expecteds generalizing index actuals with
  | nil =>
      rw [List.map_nil, eq_comm, List.map_eq_nil_iff] at h
      rw [h]
      rfl
  | cons expected expecteds ih =>
      cases actuals with
      | nil => cases h
      | cons actual actuals =>
          rw [List.map_cons, List.map_cons, List.cons.injEq] at h
          obtain ⟨hoperation, hrest⟩ := h
          by_cases heq : expected.outcome = actual.outcome
          · rw [between_cons_of_eq _ _ heq, between_cons_of_eq _ _ heq.symm, ih _ hrest]
          · rw [between_cons_of_ne _ _ heq, between_cons_of_ne _ _ (Ne.symm heq), ih _ hrest,
              ← hoperation]
            rfl

end Difference

/-! ## Two runs of the same operations -/

theorem map_operation_runLife_eq (reference : Implementation σ) (candidate : Implementation τ)
    (operations : List Operation) :
    (reference.runLife operations).answer.map Step.operation =
      (candidate.runLife operations).answer.map Step.operation :=
  (reference.operations_run operations reference.create).trans
    (candidate.operations_run operations candidate.create).symm

theorem overwrite_differences (reference : Implementation σ) (candidate : Implementation τ)
    (operations : List Operation) :
    Difference.overwrite (reference.runLife operations).answer
        (differences reference candidate operations) =
      (candidate.runLife operations).answer :=
  Difference.overwrite_between [] (map_operation_runLife_eq reference candidate operations)

theorem differences_swap (reference : Implementation σ) (candidate : Implementation τ)
    (operations : List Operation) :
    differences candidate reference operations =
      (differences reference candidate operations).map Difference.swap :=
  Difference.between_swap 0 (map_operation_runLife_eq reference candidate operations)

/--
The differences of two handles on some operations are in order, within the run, and
each tells the operation, what the reference made of it, and something else that the
candidate did, in whichever way the two carry operations out.  They turn the one run
into the other; from the candidate they are the same, swapped; and those of the early
operations are what they are without the late.
-/
theorem differences_are_exact (reference : Implementation σ) (candidate : Implementation τ)
    (early late : List Operation) :
    let operations := early ++ late
    let found := differences reference candidate operations
    (found.map Difference.index).Pairwise (· < ·) ∧
      (∀ difference ∈ found, difference.index < operations.length ∧
        operations[difference.index]? = some difference.operation ∧
        (reference.runLife operations).answer[difference.index]? =
          some ⟨difference.operation, difference.expected⟩ ∧
        difference.expected ≠ difference.actual) ∧
      Difference.overwrite (reference.runLife operations).answer found =
        (candidate.runLife operations).answer ∧
      differences candidate reference operations = found.map Difference.swap ∧
      (found.filter fun difference => difference.index < early.length) =
        differences reference candidate early := by
  intro operations found
  refine ⟨Difference.pairwise_index_between 0 _ _, ?_,
    overwrite_differences reference candidate operations,
    differences_swap reference candidate operations,
    filter_index_lt_differences reference candidate early late⟩
  intro difference hmem
  obtain ⟨hoperation, hexpected, -, hne⟩ := mem_differences.1 hmem
  refine ⟨index_lt_of_mem_differences hmem, hoperation, ?_, hne⟩
  rw [Implementation.getElem?_answer_runLife, hoperation, Option.map_some, hexpected]

/-- The read of a closed handle is a difference, also when an open follows. -/
theorem differences_are_exact_of_early_read :
    let difference : Difference :=
      ⟨0, .read, .refused (.notPermitted .read .closed), .data .sentinel⟩
    difference ∈ differences .tracked .unchecked ([.read] ++ [.open]) ∧
      (Implementation.tracked.runLife ([.read] ++ [.open])).answer[0]? =
        some ⟨.read, difference.expected⟩ ∧
      differences .tracked .unchecked [.read] = [difference] := by
  intro difference
  have hmem : difference ∈ differences .tracked .unchecked ([.read] ++ [.open]) := by decide
  obtain ⟨-, hentries, -, -, hearly⟩ :=
    differences_are_exact Implementation.tracked Implementation.unchecked [.read] [.open]
  obtain ⟨-, -, hexpected, -⟩ := hentries difference hmem
  exact ⟨hmem, hexpected, hearly.symm⟩

end HandleProtocol
