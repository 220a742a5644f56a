import HandleProtocol.Proofs.Difference.Basic

/-!
# Differences of a run that goes on

The differences of a list of operations stay what they are when more operations
follow; those of the later operations are added, and their positions are counted from
where the earlier ones end.
-/

namespace HandleProtocol

variable {σ τ : Type}

namespace Difference

/-- The same difference, this many steps later. -/
def later (difference : Difference) (steps : Nat) : Difference :=
  { difference with index := difference.index + steps }

theorem between_append {index : Nat} {expecteds actuals : List Step}
    (h : expecteds.length = actuals.length) (nexts latests : List Step) :
    between index (expecteds ++ nexts) (actuals ++ latests) =
      between index expecteds actuals ++
        between (index + expecteds.length) nexts latests := by
  induction expecteds generalizing index actuals with
  | nil =>
      cases actuals with
      | nil => rfl
      | cons _ _ => cases h
  | cons expected expecteds ih =>
      cases actuals with
      | nil => cases h
      | cons actual actuals =>
          have hrest := @ih (index + 1) actuals (Nat.succ.inj h)
          have hindex : index + (expected :: expecteds).length =
              index + 1 + expecteds.length := by
            rw [List.length_cons]
            omega
          rw [List.cons_append, List.cons_append, hindex]
          by_cases heq : expected.outcome = actual.outcome
          · rw [between_cons_of_eq _ _ heq, between_cons_of_eq _ _ heq, hrest]
          · rw [between_cons_of_ne _ _ heq, between_cons_of_ne _ _ heq, hrest,
              List.cons_append]

theorem between_add (index steps : Nat) (expecteds actuals : List Step) :
    between (index + steps) expecteds actuals =
      (between index expecteds actuals).map fun difference => difference.later steps := by
  induction expecteds generalizing index actuals with
  | nil => rfl
  | cons expected expecteds ih =>
      cases actuals with
      | nil => rfl
      | cons actual actuals =>
          have hrest := ih (index + 1) actuals
          rw [Nat.add_right_comm] at hrest
          by_cases heq : expected.outcome = actual.outcome
          · rw [between_cons_of_eq _ _ heq, between_cons_of_eq _ _ heq, hrest]
          · rw [between_cons_of_ne _ _ heq, between_cons_of_ne _ _ heq, hrest, List.map_cons]
            rfl

end Difference

theorem differences_append (reference : Implementation σ) (candidate : Implementation τ)
    (early late : List Operation) :
    differences reference candidate (early ++ late) =
      differences reference candidate early ++
        Difference.between early.length
          (reference.run late (reference.reached early)).answer
          (candidate.run late (candidate.reached early)).answer := by
  have hlength : (reference.runLife early).answer.length =
      (candidate.runLife early).answer.length := by
    rw [Implementation.length_runLife, Implementation.length_runLife]
  rw [differences, Implementation.answer_runLife_append, Implementation.answer_runLife_append,
    Difference.between_append hlength, Implementation.length_runLife, Nat.zero_add]
  rfl

/-! ## The differences of the early operations -/

theorem Difference.le_index_of_mem_between {index : Nat} {expecteds actuals : List Step}
    {difference : Difference} (h : difference ∈ between index expecteds actuals) :
    index ≤ difference.index := by
  obtain ⟨k, _, _, _, _, _, rfl⟩ := mem_between.1 h
  exact Nat.le_add_right index k

theorem index_lt_of_mem_differences {reference : Implementation σ}
    {candidate : Implementation τ} {operations : List Operation} {difference : Difference}
    (h : difference ∈ differences reference candidate operations) :
    difference.index < operations.length :=
  (List.getElem?_eq_some_iff.1 (mem_differences.1 h).1).1

/-- What follows some operations changes none of the differences that they have. -/
theorem filter_index_lt_differences (reference : Implementation σ)
    (candidate : Implementation τ) (early late : List Operation) :
    ((differences reference candidate (early ++ late)).filter fun difference =>
        difference.index < early.length) =
      differences reference candidate early := by
  rw [differences_append, List.filter_append, List.filter_eq_self.2, List.filter_eq_nil_iff.2,
    List.append_nil]
  · intro difference hlate
    simpa using Difference.le_index_of_mem_between hlate
  · intro difference hearly
    simpa using index_lt_of_mem_differences hearly

end HandleProtocol
