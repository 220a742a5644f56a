import HandleProtocol.Handle.Scripted
import HandleProtocol.Proofs.Difference.Basic
import HandleProtocol.Proofs.Replies

/-!
# Runs behind a script

A scripted handle is driven through all of its operations; the handle underneath
carries out those that get through to it, and no others.  So a run behind a script
is a run of the handle underneath on a shorter list: it raises the events of that
run, and its outcomes are those of that run except where a fault decides.
-/

namespace HandleProtocol

/-- A fault's outcome as the operation hands it on. -/
def Outcome.delivered : Operation → Outcome → Outcome
  | _, .refused refusal => .refused refusal
  | .open, _ => .done
  | .close, _ => .done
  | .read, .data payload => .data payload
  | .getData, .data payload => .data payload
  | .read, .done => .data .empty
  | .getData, .done => .data .empty

theorem Outcome.through_eq_delivered (operation : Operation) (outcome : Outcome) :
    through operation outcome = delivered operation outcome := by
  cases operation <;> cases outcome <;> rfl

namespace Script

/-- The fault is the last one of this call. -/
def Decides (script : Script) (call : Nat) (fault : Fault) : Prop :=
  ∃ earlier later, script.faults = earlier ++ fault :: later ∧ fault.call = call ∧
    ∀ other ∈ later, other.call ≠ call

variable {script : Script} {call : Nat}

theorem fault?_eq_some_iff {fault : Fault} :
    script.fault? call = some fault ↔ script.Decides call fault := by
  rw [fault?, List.find?_eq_some_iff_append]
  constructor
  · rintro ⟨hcall, later, earlier, hfaults, hlater⟩
    refine ⟨earlier.reverse, later.reverse, ?_, by simpa using hcall, ?_⟩
    · rw [← List.reverse_reverse script.faults, hfaults]
      simp
    · intro other hother
      simpa using hlater other (List.mem_reverse.1 hother)
  · rintro ⟨earlier, later, hfaults, hcall, hlater⟩
    refine ⟨by simpa using hcall, later.reverse, earlier.reverse, ?_, ?_⟩
    · rw [hfaults]
      simp
    · intro other hother
      simpa using hlater other (List.mem_reverse.1 hother)

theorem fault?_eq_none_iff :
    script.fault? call = none ↔ ∀ fault ∈ script.faults, fault.call ≠ call := by
  simp [fault?]

/-- Does the handle underneath carry out this call? -/
def passes (script : Script) (call : Nat) : Bool := (script.fault? call).all Fault.performs

/-- The operations that get through, where the first one is this call. -/
def passed (script : Script) (call : Nat) (operations : List Operation) : List Operation :=
  keptFrom script.passes call operations

end Script

namespace Implementation

variable {β : Type} {base : Implementation β}

theorem Plain.perform_scripted (hplain : base.Plain) (script : Script)
    (operation : Operation) (handle : Scripted β) :
    let reply := (base.scripted script).perform operation handle
    let under := base.perform operation handle.base
    reply.handle = ⟨if script.passes handle.calls then under.handle else handle.base,
        handle.calls + 1⟩ ∧
      reply.events = if script.passes handle.calls then under.events else [] := by
  cases hfault : script.fault? handle.calls with
  | none =>
      rw [hplain.perform_scripted_of_none operation hfault]
      simp [Script.passes, hfault]
  | some fault =>
      rw [hplain.perform_scripted_of_some operation hfault]
      simp [Script.passes, hfault]

theorem Plain.run_scripted (hplain : base.Plain) (script : Script)
    (operations : List Operation) (handle : Scripted β) :
    let ran := (base.scripted script).run operations handle
    let under := base.run (script.passed handle.calls operations) handle.base
    ran.handle = ⟨under.handle, handle.calls + operations.length⟩ ∧
      ran.events = under.events := by
  induction operations generalizing handle with
  | nil => exact ⟨rfl, rfl⟩
  | cons operation rest ih =>
      obtain ⟨hhandle, hevents⟩ := hplain.perform_scripted script operation handle
      have hrest := ih ((base.scripted script).perform operation handle).handle
      rw [run_cons, Script.passed, keptFrom_cons, List.length_cons, ← Nat.add_assoc,
        Nat.add_right_comm]
      simp only [hhandle] at hrest ⊢
      rw [hrest.1, hrest.2, hevents]
      cases script.passes handle.calls with
      | true => exact ⟨rfl, rfl⟩
      | false => exact ⟨rfl, rfl⟩

theorem Plain.reached_scripted (hplain : base.Plain) (script : Script)
    (operations : List Operation) :
    (base.scripted script).reached operations =
      ⟨base.reached (script.passed 0 operations), operations.length⟩ := by
  have hrun := (hplain.run_scripted script operations ⟨base.create, 0⟩).1
  rw [Nat.zero_add] at hrun
  exact hrun

theorem Plain.events_runLife_scripted (hplain : base.Plain) (script : Script)
    (operations : List Operation) :
    ((base.scripted script).runLife operations).events =
      (base.runLife (script.passed 0 operations)).events := by
  obtain ⟨hhandle, hevents⟩ := hplain.run_scripted script operations ⟨base.create, 0⟩
  have hrelease (handle : Scripted β) :
      (base.scripted script).release handle = base.release handle.base := rfl
  rw [runLife, runLife, events_live, events_live, hrelease]
  exact congrArg₂ (· ++ ·) hevents (congrArg (fun left => base.release left.base) hhandle)

/-! ## Outcomes -/

theorem Plain.outcomeAfter_scripted_of_decides (hplain : base.Plain) {script : Script}
    {operations : List Operation} {fault : Fault}
    (h : script.Decides operations.length fault) (operation : Operation) :
    (base.scripted script).outcomeAfter operations operation =
      fault.outcome.delivered operation := by
  rw [outcomeAfter, hplain.reached_scripted,
    hplain.perform_scripted_of_some operation (Script.fault?_eq_some_iff.2 h)]
  exact Outcome.through_eq_delivered operation fault.outcome

theorem Plain.outcomeAfter_scripted_of_forall_ne (hplain : base.Plain) {script : Script}
    {operations : List Operation}
    (h : ∀ fault ∈ script.faults, fault.call ≠ operations.length) (operation : Operation) :
    (base.scripted script).outcomeAfter operations operation =
      base.outcomeAfter (script.passed 0 operations) operation := by
  rw [outcomeAfter, hplain.reached_scripted,
    hplain.perform_scripted_of_none operation (Script.fault?_eq_none_iff.2 h)]
  rfl

end Implementation

end HandleProtocol
