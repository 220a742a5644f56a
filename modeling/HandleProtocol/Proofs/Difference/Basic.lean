import HandleProtocol.Difference
import HandleProtocol.Proofs.Run
import Mathlib.Data.List.Basic

/-!
# What a list of differences says

An entry is in the list exactly if both runs have a step at its index and the
outcomes of the two are those of the entry and not equal.  So a list of
differences is empty only if the two runs are answered alike throughout.
-/

namespace HandleProtocol

variable {σ τ : Type}

namespace Difference

theorem between_cons_of_eq {index : Nat} {expected actual : Step}
    (expecteds actuals : List Step) (h : expected.outcome = actual.outcome) :
    between index (expected :: expecteds) (actual :: actuals) =
      between (index + 1) expecteds actuals := by
  rw [between, if_pos h]

theorem between_cons_of_ne {index : Nat} {expected actual : Step}
    (expecteds actuals : List Step) (h : expected.outcome ≠ actual.outcome) :
    between index (expected :: expecteds) (actual :: actuals) =
      ⟨index, expected.operation, expected.outcome, actual.outcome⟩ ::
        between (index + 1) expecteds actuals := by
  rw [between, if_neg h]

theorem mem_between {index : Nat} {expecteds actuals : List Step} {difference : Difference} :
    difference ∈ between index expecteds actuals ↔
      ∃ k expected actual, expecteds[k]? = some expected ∧ actuals[k]? = some actual ∧
        expected.outcome ≠ actual.outcome ∧
        difference = ⟨index + k, expected.operation, expected.outcome, actual.outcome⟩ := by
  induction expecteds generalizing index actuals with
  | nil => simp [between]
  | cons expected expecteds ih =>
      cases actuals with
      | nil => simp [between]
      | cons actual actuals =>
          have htail : difference ∈ between (index + 1) expecteds actuals ↔
              ∃ k later latest, (expected :: expecteds)[k + 1]? = some later ∧
                (actual :: actuals)[k + 1]? = some latest ∧ later.outcome ≠ latest.outcome ∧
                difference = ⟨index + (k + 1), later.operation, later.outcome,
                  latest.outcome⟩ := by
            simp only [ih, List.getElem?_cons_succ, Nat.add_assoc, Nat.add_comm 1]
          constructor
          · intro h
            by_cases heq : expected.outcome = actual.outcome
            · rw [between_cons_of_eq _ _ heq] at h
              obtain ⟨k, hk⟩ := htail.1 h
              exact ⟨k + 1, hk⟩
            · rw [between_cons_of_ne _ _ heq] at h
              rcases List.mem_cons.1 h with rfl | h
              · exact ⟨0, expected, actual, rfl, rfl, heq, rfl⟩
              · obtain ⟨k, hk⟩ := htail.1 h
                exact ⟨k + 1, hk⟩
          · rintro ⟨k, later, latest, hlater, hlatest, hne, rfl⟩
            cases k with
            | zero =>
                cases hlater
                cases hlatest
                rw [between_cons_of_ne _ _ hne]
                exact List.mem_cons_self
            | succ k =>
                have hmem := htail.2 ⟨k, later, latest, hlater, hlatest, hne, rfl⟩
                by_cases heq : expected.outcome = actual.outcome
                · rw [between_cons_of_eq _ _ heq]
                  exact hmem
                · rw [between_cons_of_ne _ _ heq]
                  exact List.mem_cons_of_mem _ hmem

/-- The first position at which the outcomes are not the same is the first difference. -/
theorem between_of_first (index : Nat) {k : Nat} {expecteds actuals : List Step}
    {expected actual : Step} (hexpected : expecteds[k]? = some expected)
    (hactual : actuals[k]? = some actual) (hne : expected.outcome ≠ actual.outcome)
    (hbefore : ∀ j < k, expecteds[j]?.map Step.outcome = actuals[j]?.map Step.outcome) :
    ∃ others, between index expecteds actuals =
      ⟨index + k, expected.operation, expected.outcome, actual.outcome⟩ :: others := by
  induction expecteds generalizing index k actuals with
  | nil => cases hexpected
  | cons first expecteds ih =>
      cases actuals with
      | nil => cases hactual
      | cons other actuals =>
          cases k with
          | zero =>
              cases hexpected
              cases hactual
              rw [between_cons_of_ne _ _ hne]
              exact ⟨_, rfl⟩
          | succ k =>
              have heq : first.outcome = other.outcome := by
                simpa using hbefore 0 (Nat.succ_pos k)
              have hrest := ih (index + 1) hexpected hactual
                fun j hj => hbefore (j + 1) (Nat.succ_lt_succ hj)
              rwa [between_cons_of_eq _ _ heq, Nat.add_comm k, ← Nat.add_assoc]

theorem between_of_same (index : Nat) {expecteds actuals : List Step}
    (h : ∀ k : Nat, expecteds[k]?.map Step.outcome = actuals[k]?.map Step.outcome) :
    between index expecteds actuals = [] := by
  rw [List.eq_nil_iff_forall_not_mem]
  intro difference hmem
  obtain ⟨k, expected, actual, hexpected, hactual, hne, -⟩ := mem_between.1 hmem
  have hsame := h k
  rw [hexpected, hactual, Option.map_some, Option.map_some, Option.some.injEq] at hsame
  exact hne hsame

theorem pairwise_index_between (index : Nat) (expecteds actuals : List Step) :
    ((between index expecteds actuals).map Difference.index).Pairwise (· < ·) := by
  induction expecteds generalizing index actuals with
  | nil => simp [between]
  | cons expected expecteds ih =>
      cases actuals with
      | nil => simp [between]
      | cons actual actuals =>
          by_cases heq : expected.outcome = actual.outcome
          · rw [between_cons_of_eq _ _ heq]
            exact ih _ _
          · rw [between_cons_of_ne _ _ heq, List.map_cons, List.pairwise_cons]
            refine ⟨?_, ih _ _⟩
            intro later hlater
            obtain ⟨difference, hmem, rfl⟩ := List.mem_map.1 hlater
            obtain ⟨k, _, _, _, _, _, rfl⟩ := mem_between.1 hmem
            simp only
            omega

end Difference

/-- An entry tells the operation at its index and what each handle makes of it there. -/
theorem mem_differences {reference : Implementation σ} {candidate : Implementation τ}
    {operations : List Operation} {difference : Difference} :
    difference ∈ differences reference candidate operations ↔
      operations[difference.index]? = some difference.operation ∧
        difference.expected = reference.outcomeAfter
          (operations.take difference.index) difference.operation ∧
        difference.actual = candidate.outcomeAfter
          (operations.take difference.index) difference.operation ∧
        difference.expected ≠ difference.actual := by
  simp only [differences, Difference.mem_between, Nat.zero_add,
    Implementation.getElem?_answer_runLife]
  constructor
  · rintro ⟨k, expected, actual, hexpected, hactual, hne, rfl⟩
    obtain ⟨operation, hoperation, rfl⟩ := Option.map_eq_some_iff.1 hexpected
    rw [hoperation, Option.map_some, Option.some.injEq] at hactual
    subst hactual
    exact ⟨hoperation, rfl, rfl, hne⟩
  · rintro ⟨hoperation, hexpected, hactual, hne⟩
    refine ⟨difference.index, ⟨difference.operation, difference.expected⟩,
      ⟨difference.operation, difference.actual⟩, ?_, ?_, hne, rfl⟩
    · rw [hoperation, Option.map_some, hexpected]
    · rw [hoperation, Option.map_some, hactual]

theorem differences_eq_nil_iff {reference : Implementation σ} {candidate : Implementation τ}
    {operations : List Operation} :
    differences reference candidate operations = [] ↔
      (candidate.runLife operations).answer = (reference.runLife operations).answer := by
  constructor
  · intro h
    apply List.ext_getElem?
    intro k
    rw [Implementation.getElem?_answer_runLife, Implementation.getElem?_answer_runLife]
    cases hoperation : operations[k]? with
    | none => rfl
    | some operation =>
        have heq : reference.outcomeAfter (operations.take k) operation =
            candidate.outcomeAfter (operations.take k) operation := by
          by_contra hne
          have hmem : ⟨k, operation, _, _⟩ ∈ differences reference candidate operations :=
            mem_differences.2 ⟨hoperation, rfl, rfl, hne⟩
          rw [h] at hmem
          cases hmem
        rw [Option.map_some, Option.map_some, heq]
  · intro h
    rw [List.eq_nil_iff_forall_not_mem]
    intro difference hmem
    obtain ⟨hoperation, hexpected, hactual, hne⟩ := mem_differences.1 hmem
    have hsame := congrArg (fun steps : List Step => steps[difference.index]?) h
    simp only [Implementation.getElem?_answer_runLife, hoperation, Option.map_some,
      Option.some.injEq, Step.mk.injEq, true_and] at hsame
    rw [hexpected, hactual, hsame] at hne
    exact hne rfl

end HandleProtocol
