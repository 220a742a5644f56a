import HandleProtocol.Proofs.Difference.Append
import HandleProtocol.Proofs.Difference.Unchecked

/-!
# A close is a reset

Whatever a handle has been through, it is as good as new once it has been asked to
close: the tracked handle also where it refuses, since it refuses a close only if it
is closed already.  So what follows a close goes as on a fresh handle, and two handles
that both reset differ after a close where they differ on fresh handles.
-/

namespace HandleProtocol

namespace Implementation

variable {σ τ : Type}

/-- A close leaves a fresh handle, whatever was before it. -/
def Resets (impl : Implementation σ) : Prop :=
  ∀ history : List Operation, impl.reached (history ++ [.close]) = impl.create

/-- Nothing of a history can be seen after the close that ends it. -/
structure Forgets (impl : Implementation σ) (history continuation : List Operation) :
    Prop where
  steps : (impl.runLife (history ++ [.close] ++ continuation)).answer.drop
    (history.length + 1) = (impl.runLife continuation).answer
  stored : (impl.stored (impl.reached (history ++ [.close]))).toInt = 0
  events : (impl.runLife (history ++ [.close] ++ continuation)).events =
    (impl.run (history ++ [.close]) impl.create).events ++ (impl.runLife continuation).events

theorem Resets.forgets {impl : Implementation σ} (h : impl.Resets)
    (hempty : impl.stored impl.create = .empty) (history continuation : List Operation) :
    impl.Forgets history continuation := by
  have hreached : (impl.run (history ++ [.close]) impl.create).handle = impl.create := h history
  constructor
  case steps =>
    have hlength : (impl.runLife (history ++ [.close])).answer.length = history.length + 1 := by
      rw [length_runLife, List.length_append, List.length_singleton]
    rw [answer_runLife_append, h history, List.drop_left' hlength]
    rfl
  case stored =>
    rw [h history, hempty]
    rfl
  case events =>
    rw [runLife, runLife, events_live, events_live, run_append]
    simp only [hreached, List.append_assoc]

/-- The run of a continuation begins anew on both handles. -/
theorem Resets.differences_append {reference : Implementation σ}
    {candidate : Implementation τ} (hreference : reference.Resets)
    (hcandidate : candidate.Resets) (history continuation : List Operation) :
    differences reference candidate (history ++ [.close] ++ continuation) =
      differences reference candidate (history ++ [.close]) ++
        (differences reference candidate continuation).map fun difference =>
          difference.later (history.length + 1) := by
  have hlater := Difference.between_add 0 (history.length + 1)
    (reference.runLife continuation).answer (candidate.runLife continuation).answer
  rw [Nat.zero_add] at hlater
  rw [HandleProtocol.differences_append, hreference history, hcandidate history,
    List.length_append, List.length_singleton]
  exact congrArg _ hlater

end Implementation

/-! ## Both handles -/

theorem Tracked.Sound.handle_close {handle : Tracked} (h : handle.Sound) :
    (handle.call .close).handle = .new := by
  rw [(h.call .close).2]
  cases handle.state <;> rfl

theorem Tracked.resets : Implementation.tracked.Resets := by
  intro history
  have hsound : (Implementation.tracked.reached history).Sound :=
    Start.fresh.sound.handle_run history
  rw [Implementation.reached_concat, Implementation.perform_tracked]
  exact hsound.handle_close

theorem Unchecked.resets : Implementation.unchecked.Resets := by
  intro history
  rw [Implementation.reached_concat, Implementation.perform_unchecked]
  rfl

/--
Nothing that was before a close can be seen after it, on the tracked handle and on the
unchecked one: the later steps and events are those of a fresh handle, and the payload
is gone.  So the differences of the two after a close are those that they have on the
later operations alone, at later positions.
-/
theorem close_forgets (history continuation : List Operation) :
    Implementation.tracked.Forgets history continuation ∧
      Implementation.unchecked.Forgets history continuation ∧
      differences .tracked .unchecked (history ++ [.close] ++ continuation) =
        differences .tracked .unchecked (history ++ [.close]) ++
          (differences .tracked .unchecked continuation).map fun difference =>
            difference.later (history.length + 1) :=
  ⟨Tracked.resets.forgets rfl history continuation,
    Unchecked.resets.forgets rfl history continuation,
    Tracked.resets.differences_append Unchecked.resets history continuation⟩

end HandleProtocol
