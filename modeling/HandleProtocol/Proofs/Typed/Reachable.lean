import HandleProtocol.Handle.Typed
import HandleProtocol.Proofs.Reference

/-!
# Typed handles that can be come by

A typed handle is made as a new one and changed by its own methods only.  Along
the way it holds the payload that goes with the state its type names.
-/

namespace HandleProtocol

namespace SomeTyped

inductive Reachable : SomeTyped → Prop
  | new : Reachable .new
  | call {handle next : SomeTyped} {operation : Operation} {outcome : Outcome} :
      Reachable handle → handle.call? operation = some (outcome, next) → Reachable next

theorem stored_of_call {handle next : SomeTyped} {operation : Operation} {outcome : Outcome}
    (hstored : handle.handle.stored = Reference.stored handle.state)
    (hcall : handle.call? operation = some (outcome, next)) :
    next.handle.stored = Reference.stored next.state := by
  obtain ⟨state, handle⟩ := handle
  cases state <;> cases operation <;> simp only [call?, reduceCtorEq, Option.some.injEq,
    Prod.mk.injEq] at hcall
  all_goals
    obtain ⟨-, rfl⟩ := hcall
    first
      | rfl
      | exact hstored

theorem Reachable.stored_eq {handle : SomeTyped} (h : handle.Reachable) :
    handle.handle.stored = Reference.stored handle.state := by
  induction h with
  | new => rfl
  | call _ hcall ih => exact stored_of_call ih hcall

theorem reachable_open : Reachable ⟨.open, Typed.new.open⟩ := by
  have hcall : SomeTyped.new.call? .open = some (.done, ⟨.open, Typed.new.open⟩) := rfl
  exact .call .new hcall

theorem reachable_readable : Reachable ⟨.readable, Typed.new.open.read⟩ := by
  have hcall : (⟨.open, Typed.new.open⟩ : SomeTyped).call? .read =
      some (.done, ⟨.readable, Typed.new.open.read⟩) := rfl
  exact .call reachable_open hcall

end SomeTyped

end HandleProtocol
