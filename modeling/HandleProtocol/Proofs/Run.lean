import HandleProtocol.Implementation

/-!
# Runs are causal

For every implementation, what a step of a run comes to is decided by the
operations before it: the answer at a position is the answer of that operation
on the handle that the earlier ones left.
-/

namespace HandleProtocol.Implementation

variable {σ : Type}

theorem answer_run_append (impl : Implementation σ) (first second : List Operation)
    (handle : σ) :
    (impl.run (first ++ second) handle).answer =
      (impl.run first handle).answer ++
        (impl.run second (impl.run first handle).handle).answer := by
  rw [run_append]

theorem handle_run_cons (impl : Implementation σ) (operation : Operation)
    (rest : List Operation) (handle : σ) :
    (impl.run (operation :: rest) handle).handle =
      (impl.run rest (impl.perform operation handle).handle).handle := rfl

theorem handle_run_append (impl : Implementation σ) (first second : List Operation)
    (handle : σ) :
    (impl.run (first ++ second) handle).handle =
      (impl.run second (impl.run first handle).handle).handle := by
  rw [run_append]

/-- The step at a position is the one that its operation makes after those before it. -/
theorem getElem?_answer_run (impl : Implementation σ) (operations : List Operation) (k : Nat)
    (handle : σ) :
    (impl.run operations handle).answer[k]? =
      operations[k]?.map fun operation =>
        ⟨operation,
          (impl.perform operation (impl.run (operations.take k) handle).handle).answer⟩ := by
  induction operations generalizing handle k with
  | nil => simp
  | cons operation rest ih =>
      rw [run_cons]
      cases k with
      | zero => simp
      | succ k =>
          simp only [List.getElem?_cons_succ, List.take_succ_cons]
          rw [ih, run_cons]

/-- The handle that a list of operations leaves of a fresh one. -/
def reached (impl : Implementation σ) (operations : List Operation) : σ :=
  (impl.run operations impl.create).handle

/-- What an operation comes to after others on a fresh handle. -/
def outcomeAfter (impl : Implementation σ) (operations : List Operation)
    (operation : Operation) : Outcome :=
  (impl.perform operation (impl.reached operations)).answer

theorem getElem?_answer_runLife (impl : Implementation σ) (operations : List Operation)
    (k : Nat) :
    (impl.runLife operations).answer[k]? =
      operations[k]?.map fun operation =>
        ⟨operation, impl.outcomeAfter (operations.take k) operation⟩ :=
  getElem?_answer_run impl operations k impl.create

theorem length_runLife (impl : Implementation σ) (operations : List Operation) :
    (impl.runLife operations).answer.length = operations.length :=
  impl.length_run operations impl.create

theorem reached_concat (impl : Implementation σ) (operations : List Operation)
    (operation : Operation) :
    impl.reached (operations ++ [operation]) =
      (impl.perform operation (impl.reached operations)).handle :=
  handle_run_append impl operations [operation] impl.create

theorem answer_runLife_append (impl : Implementation σ) (early late : List Operation) :
    (impl.runLife (early ++ late)).answer =
      (impl.runLife early).answer ++ (impl.run late (impl.reached early)).answer :=
  answer_run_append impl early late impl.create

theorem answer_runLife_take (impl : Implementation σ) (operations : List Operation) (k : Nat) :
    (impl.runLife (operations.take k)).answer = (impl.runLife operations).answer.take k := by
  apply List.ext_getElem?
  intro i
  rw [List.getElem?_take, getElem?_answer_runLife, getElem?_answer_runLife, List.getElem?_take]
  split
  case isTrue hi => rw [List.take_take, Nat.min_eq_left (Nat.le_of_lt hi)]
  case isFalse => rfl

/-- What the last of some operations comes to. -/
def lastOutcome? (impl : Implementation σ) (operations : List Operation) : Option Outcome :=
  (impl.runLife operations).answer.getLast?.map Step.outcome

theorem lastOutcome?_concat (impl : Implementation σ) (operations : List Operation)
    (operation : Operation) :
    impl.lastOutcome? (operations ++ [operation]) =
      some (impl.outcomeAfter operations operation) := by
  have hlast : (impl.run [operation] (impl.reached operations)).answer =
      [⟨operation, impl.outcomeAfter operations operation⟩] := rfl
  rw [lastOutcome?, runLife, answer_live, answer_run_append]
  change ((impl.run operations impl.create).answer ++
    (impl.run [operation] (impl.reached operations)).answer).getLast?.map Step.outcome = _
  rw [hlast, List.getLast?_concat, Option.map_some]

/-- Two handles that answer a list alike answer each of its operations alike. -/
theorem outcomeAfter_eq_of_isPrefix {τ : Type} {impl : Implementation σ}
    {other : Implementation τ} {whole operations : List Operation} {operation : Operation}
    (h : (impl.runLife whole).answer = (other.runLife whole).answer)
    (hbegin : operations ++ [operation] <+: whole) :
    impl.outcomeAfter operations operation = other.outcomeAfter operations operation := by
  obtain ⟨rest, rfl⟩ := hbegin
  have hstep := congrArg (fun steps : List Step => steps[operations.length]?) h
  simpa [getElem?_answer_runLife] using hstep

end HandleProtocol.Implementation
