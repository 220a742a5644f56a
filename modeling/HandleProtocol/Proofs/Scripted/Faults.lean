import HandleProtocol.Handle.Tracked
import HandleProtocol.Proofs.Scripted.Run

/-!
# Faults are injected exactly

At each position of a run behind a script either the last fault of this call
decides, and its outcome is delivered, or the handle underneath answers as it does
on the operations that got through.  Faults that let their calls through leave the
handle underneath on its own course, so they show as differences from it exactly
where they deliver something else.
-/

namespace HandleProtocol.Implementation

variable {β : Type} {base : Implementation β}

/-- The operation that gets through keeps its place after those that did before it. -/
theorem getElem?_passed {script : Script} {operations : List Operation} {k : Nat}
    {operation : Operation} (hoperation : operations[k]? = some operation)
    (hpasses : script.passes k = true) :
    (script.passed 0 operations)[(script.passed 0 (operations.take k)).length]? =
        some operation ∧
      (script.passed 0 operations).take (script.passed 0 (operations.take k)).length =
        script.passed 0 (operations.take k) := by
  obtain ⟨hk, hoperation⟩ := List.getElem?_eq_some_iff.1 hoperation
  have hlength : (operations.take k).length = k := List.length_take_of_le (Nat.le_of_lt hk)
  have hsplit : script.passed 0 operations =
      script.passed 0 (operations.take k) ++
        operation :: script.passed (k + 1) (operations.drop (k + 1)) := by
    conv_lhs =>
      rw [← List.take_append_drop k operations, List.drop_eq_getElem_cons hk, hoperation]
    rw [Script.passed, keptFrom_append, keptFrom_cons, hlength, Nat.zero_add, if_pos hpasses]
    rfl
  rw [hsplit]
  exact ⟨by simp, List.take_left⟩

theorem Plain.answer_runLife_scripted (hplain : base.Plain) (script : Script)
    {operations : List Operation} {k : Nat} {operation : Operation}
    (hoperation : operations[k]? = some operation) :
    ∃ outcome,
      ((base.scripted script).runLife operations).answer[k]? = some ⟨operation, outcome⟩ ∧
      ((∃ fault, script.Decides k fault ∧ outcome = fault.outcome.delivered operation) ∨
        (∀ fault ∈ script.faults, fault.call ≠ k) ∧
          (base.runLife (script.passed 0 operations)).answer[
            (script.passed 0 (operations.take k)).length]? = some ⟨operation, outcome⟩) := by
  have hk : k < operations.length := (List.getElem?_eq_some_iff.1 hoperation).1
  have hlength : (operations.take k).length = k := List.length_take_of_le (Nat.le_of_lt hk)
  refine ⟨(base.scripted script).outcomeAfter (operations.take k) operation, ?_, ?_⟩
  · rw [getElem?_answer_runLife, hoperation, Option.map_some]
  · cases hfault : script.fault? k with
    | some fault =>
        left
        have hdecides : script.Decides (operations.take k).length fault := by
          rw [hlength]
          exact Script.fault?_eq_some_iff.1 hfault
        exact ⟨fault, hlength ▸ hdecides,
          hplain.outcomeAfter_scripted_of_decides hdecides operation⟩
    | none =>
        right
        have hnone := Script.fault?_eq_none_iff.1 hfault
        have hpasses : script.passes k = true := by simp [Script.passes, hfault]
        obtain ⟨hplace, hbefore⟩ := getElem?_passed hoperation hpasses
        refine ⟨hnone, ?_⟩
        rw [getElem?_answer_runLife, hplace, hbefore, Option.map_some,
          hplain.outcomeAfter_scripted_of_forall_ne (by rwa [hlength])]

/-! ## Differences from the handle underneath -/

theorem passed_take_eq_self {script : Script} {operations : List Operation}
    (h : ∀ k < operations.length, ∀ fault, script.Decides k fault → fault.performs = true)
    (k : Nat) : script.passed 0 (operations.take k) = operations.take k := by
  apply keptFrom_eq_self
  intro i hi
  have hi' : i < operations.length := Nat.lt_of_lt_of_le hi (List.length_take_le' _ _)
  rw [Nat.zero_add, Script.passes]
  cases hfault : script.fault? i with
  | none => rfl
  | some fault => exact h i hi' fault (Script.fault?_eq_some_iff.1 hfault)

theorem Plain.mem_index_differences_scripted (hplain : base.Plain) {script : Script}
    {operations : List Operation}
    (h : ∀ k < operations.length, ∀ fault, script.Decides k fault → fault.performs = true)
    (k : Nat) :
    k ∈ (differences base (base.scripted script) operations).map Difference.index ↔
      ∃ operation fault outcome,
        (base.runLife operations).answer[k]? = some ⟨operation, outcome⟩ ∧
          script.Decides k fault ∧ fault.outcome.delivered operation ≠ outcome := by
  have hlength {operation : Operation} (hoperation : operations[k]? = some operation) :
      (operations.take k).length = k :=
    List.length_take_of_le (Nat.le_of_lt (List.getElem?_eq_some_iff.1 hoperation).1)
  constructor
  · intro hmem
    obtain ⟨difference, hdifference, rfl⟩ := List.mem_map.1 hmem
    obtain ⟨hoperation, hexpected, hactual, hne⟩ := mem_differences.1 hdifference
    cases hfault : script.fault? difference.index with
    | none =>
        -- Without a fault the handle underneath answers, and it is on its own course.
        have hnone := Script.fault?_eq_none_iff.1 hfault
        rw [hplain.outcomeAfter_scripted_of_forall_ne (by rwa [hlength hoperation]),
          passed_take_eq_self h, ← hexpected] at hactual
        exact absurd hactual.symm hne
    | some fault =>
        have hdecides := Script.fault?_eq_some_iff.1 hfault
        rw [hplain.outcomeAfter_scripted_of_decides (by rwa [hlength hoperation])] at hactual
        refine ⟨difference.operation, fault, difference.expected, ?_, hdecides, ?_⟩
        · rw [getElem?_answer_runLife, hoperation, Option.map_some, hexpected]
        · rw [← hactual]
          exact hne.symm
  · rintro ⟨operation, fault, outcome, hanswer, hdecides, hne⟩
    rw [getElem?_answer_runLife, Option.map_eq_some_iff] at hanswer
    obtain ⟨_, hoperation, hstep⟩ := hanswer
    cases hstep
    let difference : Difference :=
      ⟨k, operation, base.outcomeAfter (operations.take k) operation,
        (base.scripted script).outcomeAfter (operations.take k) operation⟩
    have hdifference : difference ∈ differences base (base.scripted script) operations := by
      refine mem_differences.2 ⟨hoperation, rfl, rfl, ?_⟩
      simp only [difference]
      rw [hplain.outcomeAfter_scripted_of_decides (by rwa [hlength hoperation])]
      exact hne.symm
    exact List.mem_map_of_mem hdifference

/--
A run behind a script, on any plain handle.  Its events are those of the handle
underneath on the operations that get through, its release included.  At each
position the last fault of the call decides; without one the outcome is that of
the handle underneath, at the place of the operation among those that get through.
If all faults that decide let their calls through, the differences from the handle
underneath are where a fault delivers another outcome.
-/
theorem faults_are_exact (hplain : base.Plain) (script : Script)
    (operations : List Operation) :
    let life := (base.scripted script).runLife operations
    let under := base.runLife (script.passed 0 operations)
    life.events = under.events ∧
      (∀ (k : Nat) (operation : Operation), operations[k]? = some operation →
        ∃ outcome, life.answer[k]? = some ⟨operation, outcome⟩ ∧
          ((∃ fault, script.Decides k fault ∧
              outcome = fault.outcome.delivered operation) ∨
            (∀ fault ∈ script.faults, fault.call ≠ k) ∧
              under.answer[(script.passed 0 (operations.take k)).length]? =
                some ⟨operation, outcome⟩)) ∧
      ((∀ k < operations.length, ∀ fault, script.Decides k fault → fault.performs = true) →
        let indices :=
          (differences base (base.scripted script) operations).map Difference.index
        indices.Pairwise (· < ·) ∧
          ∀ k, k ∈ indices ↔ ∃ operation fault outcome,
            (base.runLife operations).answer[k]? = some ⟨operation, outcome⟩ ∧
              script.Decides k fault ∧ fault.outcome.delivered operation ≠ outcome) := by
  intro life under
  refine ⟨hplain.events_runLife_scripted script operations, ?_, ?_⟩
  · intro k operation hoperation
    exact hplain.answer_runLife_scripted script hoperation
  · intro h indices
    exact ⟨Difference.pairwise_index_between _ _ _,
      hplain.mem_index_differences_scripted h⟩

/-- Of two faults of the read the later one counts: it lets the read through and
delivers another payload, which is the one difference. -/
theorem faults_are_exact_of_read :
    let script : Script := ⟨[⟨1, false, .refused .alreadyClosed⟩, ⟨1, true, .data ⟨7⟩⟩], none⟩
    let operations : List Operation := [.open, .read, .getData]
    tracked.Plain ∧
      (∀ k < operations.length, ∀ fault, script.Decides k fault → fault.performs = true) ∧
      operations[1]? = some .read ∧
      (∃ outcome, ((tracked.scripted script).runLife operations).answer[1]? =
        some ⟨.read, outcome⟩) ∧
      1 ∈ (differences tracked (tracked.scripted script) operations).map
        Difference.index := by
  intro script operations
  have hperforms : ∀ k < operations.length, ∀ fault,
      script.Decides k fault → fault.performs = true := by
    intro k hk fault h
    have hfault := Script.fault?_eq_some_iff.2 h
    have hk' : k = 0 ∨ k = 1 ∨ k = 2 := by
      change k < 3 at hk
      omega
    rcases hk' with rfl | rfl | rfl <;> cases hfault
    rfl
  obtain ⟨-, houtcomes, hdifferences⟩ :=
    faults_are_exact plain_tracked script operations
  obtain ⟨outcome, houtcome, -⟩ := houtcomes 1 .read rfl
  refine ⟨plain_tracked, hperforms, rfl, ⟨outcome, houtcome⟩, ?_⟩
  refine ((hdifferences hperforms).2 1).2 ⟨.read, ⟨1, true, .data ⟨7⟩⟩, .data .sentinel, rfl,
    Script.fault?_eq_some_iff.1 rfl, ?_⟩
  decide

end HandleProtocol.Implementation
