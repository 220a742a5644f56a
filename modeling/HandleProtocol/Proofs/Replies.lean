import HandleProtocol.Proofs.Run
import Mathlib.Data.Finset.Insert

/-!
# The replies of a run

A run can be told reply by reply: each step with the handle that it left and the
events that it raised.  Operations that leave the handle as it was may be taken out
of a run.  The replies to all the others stay what they were.
-/

namespace HandleProtocol

/-! ## Some of the entries of a list -/

section

variable {α β : Type}

/-- The entries at those positions that are kept, where the first is at this one. -/
def keptFrom (keep : Nat → Bool) (position : Nat) (entries : List α) : List α :=
  ((entries.zipIdx position).filter fun entry => keep entry.2).map Prod.fst

/-- The entries at other positions than these. -/
def without (gone : Finset Nat) (entries : List α) : List α :=
  keptFrom (fun position => position ∉ gone) 0 entries

variable {keep : Nat → Bool} {position : Nat}

theorem keptFrom_cons (entry : α) (rest : List α) :
    keptFrom keep position (entry :: rest) =
      if keep position then entry :: keptFrom keep (position + 1) rest
      else keptFrom keep (position + 1) rest := by
  cases hkeep : keep position <;> simp [keptFrom, List.zipIdx_cons, hkeep]

theorem keptFrom_append (first second : List α) :
    keptFrom keep position (first ++ second) =
      keptFrom keep position first ++ keptFrom keep (position + first.length) second := by
  simp [keptFrom, List.zipIdx_append]

theorem keptFrom_eq_self {entries : List α}
    (h : ∀ k < entries.length, keep (position + k) = true) :
    keptFrom keep position entries = entries := by
  induction entries generalizing position with
  | nil => rfl
  | cons entry rest ih =>
      have hfirst := h 0 (by simp)
      have hrest : ∀ k < rest.length, keep (position + 1 + k) = true := by
        intro k hk
        have := h (k + 1) (by simpa using hk)
        rwa [Nat.add_assoc, Nat.add_comm 1]
      rw [keptFrom_cons, ih hrest]
      simpa using hfirst

theorem map_keptFrom (f : α → β) (entries : List α) :
    (keptFrom keep position entries).map f = keptFrom keep position (entries.map f) := by
  induction entries generalizing position with
  | nil => rfl
  | cons entry rest ih =>
      rw [List.map_cons, keptFrom_cons, keptFrom_cons]
      split <;> simp [ih]

end

namespace Implementation

variable {σ : Type}

/-! ## One reply for each operation -/

def replies (impl : Implementation σ) : List Operation → σ → List (Reply σ Step)
  | [], _ => []
  | operation :: rest, handle =>
      let reply := impl.perform operation handle
      reply.map (Step.mk operation) :: impl.replies rest reply.handle

theorem replies_cons (impl : Implementation σ) (operation : Operation)
    (rest : List Operation) (handle : σ) :
    impl.replies (operation :: rest) handle =
      (impl.perform operation handle).map (Step.mk operation) ::
        impl.replies rest (impl.perform operation handle).handle := rfl

theorem answer_run_eq (impl : Implementation σ) (operations : List Operation) (handle : σ) :
    (impl.run operations handle).answer = (impl.replies operations handle).map Reply.answer := by
  induction operations generalizing handle with
  | nil => rfl
  | cons operation rest ih =>
      rw [run_cons, replies_cons, List.map_cons, ← ih]
      rfl

theorem events_run_eq (impl : Implementation σ) (operations : List Operation) (handle : σ) :
    (impl.run operations handle).events =
      (impl.replies operations handle).flatMap Reply.events := by
  induction operations generalizing handle with
  | nil => rfl
  | cons operation rest ih =>
      rw [run_cons, replies_cons, List.flatMap_cons, ← ih]
      rfl

/-! ## Operations that leave the handle as it was -/

/-- Each operation that is not kept leaves the handle as those before it left it. -/
def Idle (impl : Implementation σ) (keep : Nat → Bool) (position : Nat)
    (operations : List Operation) (handle : σ) : Prop :=
  ∀ k operation, operations[k]? = some operation → keep (position + k) = false →
    let before := (impl.run (operations.take k) handle).handle
    (impl.perform operation before).handle = before

theorem Idle.tail {impl : Implementation σ} {keep : Nat → Bool} {position : Nat}
    {operation : Operation} {rest : List Operation} {handle : σ}
    (h : impl.Idle keep position (operation :: rest) handle) :
    impl.Idle keep (position + 1) rest (impl.perform operation handle).handle := by
  intro k later hlater hgone
  rw [Nat.add_assoc, Nat.add_comm 1] at hgone
  exact h (k + 1) later hlater hgone

/-- Operations that leave the handle as it was can be taken out of a run. -/
theorem Idle.run_kept {impl : Implementation σ} {keep : Nat → Bool} {position : Nat}
    {operations : List Operation} {handle : σ}
    (h : impl.Idle keep position operations handle) :
    impl.replies (keptFrom keep position operations) handle =
        keptFrom keep position (impl.replies operations handle) ∧
      (impl.run (keptFrom keep position operations) handle).handle =
        (impl.run operations handle).handle := by
  induction operations generalizing position handle with
  | nil => exact ⟨rfl, rfl⟩
  | cons operation rest ih =>
      obtain ⟨hreplies, hhandle⟩ := ih h.tail
      rw [replies_cons, keptFrom_cons, keptFrom_cons, handle_run_cons]
      cases hkeep : keep position with
      | true =>
          simp only [if_true]
          rw [replies_cons, handle_run_cons, hreplies]
          exact ⟨rfl, hhandle⟩
      | false =>
          have hsame : (impl.perform operation handle).handle = handle := h 0 operation rfl hkeep
          rw [hsame] at hreplies hhandle ⊢
          exact ⟨hreplies, hhandle⟩

end Implementation

end HandleProtocol
