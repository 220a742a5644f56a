import HandleProtocol.Implementation

/-!
Faults put between a handle and the code that drives it.

A scripted handle counts its calls.  A call without a fault goes to the handle
underneath.  A call with a fault answers what the fault says; the handle
underneath is either not touched, or carries the call out and has its answer
ignored.
-/

namespace HandleProtocol

structure Fault where
  call : Nat
  /-- Does the handle underneath carry the call out? -/
  performs : Bool
  outcome : Outcome
  deriving DecidableEq, Repr

/-- The faults of a handle, and the payload it claims to hold, if any. -/
structure Script where
  faults : List Fault
  stored : Option Payload
  deriving DecidableEq, Repr

/-- The fault of a call: of two with the same number the later one counts. -/
def Script.fault? (script : Script) (call : Nat) : Option Fault :=
  script.faults.reverse.find? fun fault => fault.call = call

structure Scripted (β : Type) where
  base : β
  calls : Nat
  deriving DecidableEq, Repr

namespace Scripted

variable {β α : Type}

/-- Let the script decide over one call; `deliver` turns a fault's outcome into
an answer of this call. -/
def interpose (script : Script) (deliver : Outcome → Except Refusal α)
    (call : Call β Refusal α) : Call (Scripted β) Refusal α := fun handle =>
  match script.fault? handle.calls with
  | none =>
      let reply := call handle.base
      ⟨reply.answer, ⟨reply.handle, handle.calls + 1⟩, reply.events⟩
  | some fault =>
      if fault.performs then
        let reply := call handle.base
        ⟨deliver fault.outcome, ⟨reply.handle, handle.calls + 1⟩, reply.events⟩
      else
        ⟨deliver fault.outcome, ⟨handle.base, handle.calls + 1⟩, []⟩

end Scripted

def Implementation.scripted {β : Type} (base : Implementation β) (script : Script) :
    Implementation (Scripted β) where
  create := ⟨base.create, 0⟩
  «open» := Scripted.interpose script Outcome.asDone base.open
  read := Scripted.interpose script Outcome.asData base.read
  getData := Scripted.interpose script Outcome.asData base.getData
  close := Scripted.interpose script Outcome.asDone base.close
  stored := fun handle => script.stored.getD (base.stored handle.base)
  release := fun handle => base.release handle.base

namespace Implementation

variable {β : Type}

theorem plain_scripted (base : Implementation β) (script : Script) :
    (base.scripted script).Plain := rfl

theorem Plain.perform_scripted_of_none {base : Implementation β} (hplain : base.Plain)
    {script : Script} (operation : Operation) {handle : Scripted β}
    (h : script.fault? handle.calls = none) :
    (base.scripted script).perform operation handle =
      let reply := base.perform operation handle.base
      ⟨reply.answer, ⟨reply.handle, handle.calls + 1⟩, reply.events⟩ := by
  rw [hplain]
  cases operation <;> simp [scripted, dispatch, Scripted.interpose, h, Reply.map]

theorem Plain.perform_scripted_of_some {base : Implementation β} (hplain : base.Plain)
    {script : Script} (operation : Operation) {handle : Scripted β} {fault : Fault}
    (h : script.fault? handle.calls = some fault) :
    (base.scripted script).perform operation handle =
      let reply := base.perform operation handle.base
      ⟨fault.outcome.through operation,
        ⟨if fault.performs then reply.handle else handle.base, handle.calls + 1⟩,
        if fault.performs then reply.events else []⟩ := by
  rw [hplain]
  cases hperforms : fault.performs <;> cases operation <;>
    simp [scripted, dispatch, Scripted.interpose, h, hperforms, Reply.map, Outcome.through]

end Implementation

end HandleProtocol
