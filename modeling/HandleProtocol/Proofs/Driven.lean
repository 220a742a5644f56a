import HandleProtocol.Contract
import HandleProtocol.Proofs.Run
import HandleProtocol.RoundTrip

/-!
# Drivers do nothing but operate

A driver may stop at any point, and what it stops at is its own affair.  But all that
it does to a handle are operations, in some order, and the release at the end.  So its
life is the life of some list of operations, as far as the handle and the events are
concerned.
-/

namespace HandleProtocol

namespace Implementation

variable {σ ε ε' α β : Type}

/-- Whatever it answers, the call carries out some operations and does nothing else. -/
def Operates (impl : Implementation σ) (call : Call σ ε α) : Prop :=
  ∀ handle, ∃ operations,
    (call handle).handle = (impl.run operations handle).handle ∧
      (call handle).events = (impl.run operations handle).events

variable {impl : Implementation σ} {call : Call σ ε α}

theorem operates_of_idle (h : ∀ handle, (call handle).handle = handle ∧ (call handle).events = []) :
    impl.Operates call :=
  fun handle => ⟨[], h handle⟩

theorem operates_of_perform (operation : Operation)
    (h : ∀ handle, (call handle).handle = (impl.perform operation handle).handle ∧
      (call handle).events = (impl.perform operation handle).events) :
    impl.Operates call := by
  intro handle
  obtain ⟨hhandle, hevents⟩ := h handle
  exact ⟨[operation], hhandle, hevents.trans (List.append_nil _).symm⟩

theorem Operates.bind {next : α → Call σ ε β} (hcall : impl.Operates call)
    (hnext : ∀ a, impl.Operates (next a)) : impl.Operates (call >>= next) := by
  intro handle
  obtain ⟨early, hhandle, hevents⟩ := hcall handle
  cases hreply : call handle with
  | mk answer left events =>
      rw [hreply] at hhandle hevents
      cases answer with
      | error e =>
          -- The error ends it, and what was done so far stays done.
          rw [Call.bind_of_error hreply]
          exact ⟨early, hhandle, hevents⟩
      | ok a =>
          obtain ⟨late, hhandle', hevents'⟩ := hnext a left
          refine ⟨early ++ late, ?_⟩
          rw [Call.bind_of_ok hreply, run_append]
          simp only at hhandle hevents ⊢
          rw [hhandle', hevents', hhandle, hevents]
          exact ⟨rfl, rfl⟩

theorem Operates.mapError (hcall : impl.Operates call) (f : ε → ε') :
    impl.Operates (call.mapError f) := hcall

theorem operates_pure (a : α) : impl.Operates (pure a : Call σ ε α) :=
  operates_of_idle fun _ => ⟨rfl, rfl⟩

/-- A life in which a handle is only operated on is that of a list of operations. -/
theorem Operates.events_live (hcall : impl.Operates call) :
    ∃ operations, (impl.live call).events = (impl.runLife operations).events := by
  obtain ⟨operations, hhandle, hevents⟩ := hcall impl.create
  refine ⟨operations, ?_⟩
  change (call impl.create).events ++ impl.release (call impl.create).handle = _
  rw [hevents, hhandle]
  rfl

/-! ## The drivers -/

theorem Plain.operates_dispatch (hplain : impl.Plain) (operation : Operation)
    (h : ∀ handle,
      let reply := dispatch impl.open impl.read impl.getData impl.close operation handle
      (call handle).handle = reply.handle ∧ (call handle).events = reply.events) :
    impl.Operates call := by
  apply operates_of_perform operation
  rw [hplain]
  exact h

theorem Plain.operates_getData (hplain : impl.Plain) : impl.Operates impl.getData :=
  hplain.operates_dispatch .getData fun _ => ⟨rfl, rfl⟩

theorem Plain.operates_roundTrip (hplain : impl.Plain) : impl.Operates impl.roundTrip := by
  have hopen : impl.Operates impl.open := hplain.operates_dispatch .open fun _ => ⟨rfl, rfl⟩
  have hread : impl.Operates impl.read := hplain.operates_dispatch .read fun _ => ⟨rfl, rfl⟩
  have hclose : impl.Operates impl.close :=
    hplain.operates_dispatch .close fun _ => ⟨rfl, rfl⟩
  exact hopen.bind fun _ => hread.bind fun _ => hplain.operates_getData.bind fun data =>
    hclose.bind fun _ => operates_pure data

theorem Plain.operates_check (hplain : impl.Plain) (check : Check) :
    impl.Operates (check.run impl) := by
  cases check with
  | expect operation expected => exact operates_of_perform operation fun _ => ⟨rfl, rfl⟩
  | query expected => exact hplain.operates_getData
  | prepare operation => exact operates_of_perform operation fun _ => ⟨rfl, rfl⟩
  | cleared =>
      refine operates_of_idle fun handle => ?_
      simp only [Check.run]
      split <;> exact ⟨rfl, rfl⟩

theorem Plain.operates_runAll (hplain : impl.Plain) (position : Nat) (checks : List Check) :
    impl.Operates (Check.runAll impl position checks) := by
  induction checks generalizing position with
  | nil => exact operates_pure ()
  | cons check rest ih =>
      exact ((hplain.operates_check check).mapError _).bind fun _ => ih (position + 1)

theorem Plain.operates_hold (hplain : impl.Plain) (contract : Contract) :
    impl.Operates (contract.hold impl) :=
  (hplain.operates_runAll 0 contract.checks).mapError _

end Implementation

end HandleProtocol
