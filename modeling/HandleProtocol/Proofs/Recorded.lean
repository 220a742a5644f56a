import HandleProtocol.Implementation

/-!
# Handles that write down what they are asked for

A recorded handle passes every call on to the handle underneath and keeps a list
of the operations, whichever way they come.  It answers and raises events like the
handle underneath, so what a driver asks for can be read off the recorded handle that
it leaves.
-/

namespace HandleProtocol

structure Recorded (σ : Type) where
  base : σ
  /-- The operations so far, the first one first. -/
  asked : List Operation
  deriving DecidableEq, Repr

variable {σ : Type}

def Recorded.pass {α : Type} (operation : Operation) (call : σ → Reply σ α)
    (handle : Recorded σ) : Reply (Recorded σ) α :=
  let reply := call handle.base
  ⟨reply.answer, ⟨reply.handle, handle.asked ++ [operation]⟩, reply.events⟩

namespace Implementation

def recorded (impl : Implementation σ) : Implementation (Recorded σ) where
  create := ⟨impl.create, []⟩
  «open» := Recorded.pass .open impl.open
  read := Recorded.pass .read impl.read
  getData := Recorded.pass .getData impl.getData
  close := Recorded.pass .close impl.close
  stored := fun handle => impl.stored handle.base
  release := fun handle => impl.release handle.base
  perform := fun operation => Recorded.pass operation (impl.perform operation)

@[simp] theorem create_recorded (impl : Implementation σ) :
    impl.recorded.create = ⟨impl.create, []⟩ := rfl

@[simp] theorem stored_recorded (impl : Implementation σ) (handle : Recorded σ) :
    impl.recorded.stored handle = impl.stored handle.base := rfl

theorem perform_recorded (impl : Implementation σ) (operation : Operation)
    (handle : Recorded σ) :
    impl.recorded.perform operation handle =
      let reply := impl.perform operation handle.base
      ⟨reply.answer, ⟨reply.handle, handle.asked ++ [operation]⟩, reply.events⟩ := rfl

theorem Plain.recorded {impl : Implementation σ} (h : impl.Plain) : impl.recorded.Plain := by
  funext operation handle
  rw [perform_recorded, h]
  cases operation <;> rfl

theorem run_recorded (impl : Implementation σ) (operations : List Operation)
    (handle : Recorded σ) :
    impl.recorded.run operations handle =
      let reply := impl.run operations handle.base
      ⟨reply.answer, ⟨reply.handle, handle.asked ++ operations⟩, reply.events⟩ := by
  induction operations generalizing handle with
  | nil => simp
  | cons operation rest ih =>
      rw [run_cons, run_cons, perform_recorded]
      simp only [ih, List.append_assoc, List.singleton_append]

end Implementation

end HandleProtocol
