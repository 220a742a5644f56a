import HandleProtocol.Implementation

/-!
The handle that checks nothing.

It keeps a payload and no state: every operation goes through at any time and
does to the payload what that operation does.  It raises no events.
-/

namespace HandleProtocol

structure Unchecked where
  stored : Payload
  deriving DecidableEq, Repr

namespace Unchecked

def new : Unchecked := ⟨.empty⟩

/-- Carry out an operation; the answer is what is then stored. -/
def carryOut (operation : Operation) : Call Unchecked Refusal Payload := fun handle =>
  let stored := operation.store handle.stored
  ⟨.ok stored, ⟨stored⟩, []⟩

def inspect (handle : Unchecked) : String :=
  "UncheckedHandle \x7b data: " ++ handle.stored.inspect ++ " \x7d"

end Unchecked

def Implementation.unchecked : Implementation Unchecked where
  create := .new
  «open» := do let _ ← Unchecked.carryOut .open
  read := Unchecked.carryOut .read
  getData := Unchecked.carryOut .getData
  close := do let _ ← Unchecked.carryOut .close
  stored := Unchecked.stored
  release := fun _ => []

namespace Implementation

@[simp] theorem create_unchecked : unchecked.create = Unchecked.new := rfl

@[simp] theorem stored_unchecked (handle : Unchecked) :
    unchecked.stored handle = handle.stored := rfl

@[simp] theorem release_unchecked (handle : Unchecked) : unchecked.release handle = [] := rfl

theorem plain_unchecked : unchecked.Plain := rfl

theorem perform_unchecked (operation : Operation) (handle : Unchecked) :
    unchecked.perform operation handle =
      ⟨.success operation (operation.store handle.stored),
        ⟨operation.store handle.stored⟩, []⟩ := by
  cases operation <;> rfl

end Implementation

end HandleProtocol
