import HandleProtocol.Proofs.Session.Slot
import HandleProtocol.Proofs.Typed.Reachable

/-!
# From a typed handle to a tracked one

A typed handle may be erased at any time.  It has the operations that the tracked
handle accepts, and erasing it before an operation comes to the same as erasing it
afterwards.  So a handle that was typed for a while is, from then on, the tracked
handle that it would have been from the beginning.
-/

namespace HandleProtocol

namespace SomeTyped

theorem call_erase_of_some {handle next : SomeTyped} {operation : Operation}
    {outcome : Outcome} (h : handle.call? operation = some (outcome, next)) :
    (handle.handle.erase.call operation).handle = next.handle.erase ∧
      (handle.handle.erase.call operation).answer.isRefused = false ∧
      (operation = .getData →
        (handle.handle.erase.call operation).answer = outcome) := by
  obtain ⟨state, handle⟩ := handle
  -- Only the five operations that a state has are left.
  cases state <;> cases operation <;> simp only [call?, reduceCtorEq, Option.some.injEq,
    Prod.mk.injEq] at h
  all_goals
    obtain ⟨rfl, rfl⟩ := h
    exact ⟨rfl, rfl, fun hdata => by first | rfl | cases hdata⟩

theorem call_erase_of_none {handle : SomeTyped} {operation : Operation}
    (h : handle.call? operation = none) :
    (handle.handle.erase.call operation).handle = handle.handle.erase ∧
      (handle.handle.erase.call operation).answer.isRefused = true := by
  obtain ⟨state, handle⟩ := handle
  cases state <;> cases operation <;> simp only [call?, reduceCtorEq] at h
  all_goals exact ⟨rfl, rfl⟩

theorem Reachable.releasable {handle : SomeTyped} (h : handle.Reachable) :
    handle.handle.Releasable := by
  have hstored := h.stored_eq
  obtain ⟨state, handle⟩ := handle
  cases state with
  | closed => exact .inr (Payload.isEmpty_iff.2 hstored)
  | «open» => exact .inr (Payload.isEmpty_iff.2 hstored)
  | readable => exact .inl rfl

end SomeTyped

namespace Session

/-! ## Both handles side by side -/

/-- What a typed handle answers to an operation, and what a tracked one does. -/
structure Parallel (operation : Operation) (typed tracked : Response) : Prop where
  callable_iff : typed.answer ≠ .notCallable ↔
    ∃ outcome, tracked.answer = .outcome outcome ∧ outcome.isRefused = false
  data_eq : operation = .getData → typed.answer ≠ .notCallable → typed.answer = tracked.answer
  silent : typed.events = []
  erased : ∃ handle : SomeTyped, handle.handle.Releasable ∧
    typed.slot = some (.typed handle) ∧ tracked.slot = some (.tracked handle.handle.erase)

/-- A typed handle in one slot, and what it is erased to in the other. -/
def Erased (typed tracked : Option Held) : Prop :=
  ∃ handle : SomeTyped, handle.Reachable ∧ typed = some (.typed handle) ∧
    tracked = some (.tracked handle.handle.erase)

variable {typed tracked : Option Held}

theorem erased_new : Erased (some (.new .typed)) (some (.new .tracked)) :=
  ⟨.new, .new, rfl, rfl⟩

theorem Erased.parallel (h : Erased typed tracked) (operation : Operation) :
    Parallel operation (obey typed (.call operation)) (obey tracked (.call operation)) ∧
      Erased (obey typed (.call operation)).slot (obey tracked (.call operation)).slot := by
  obtain ⟨handle, hreachable, rfl, rfl⟩ := h
  have htracked : obey (some (.tracked handle.handle.erase)) (.call operation) =
      .ofReply .tracked (handle.handle.erase.call operation) := rfl
  cases hcall : handle.call? operation with
  | none =>
      have htyped : obey (some (.typed handle)) (.call operation) =
          .fail .notCallable (some (.typed handle)) := by
        simp only [obey, Held.obey, Held.call, hcall]
      obtain ⟨hsame, hrefused⟩ := SomeTyped.call_erase_of_none hcall
      rw [htyped, htracked, Response.ofReply, hsame]
      refine ⟨⟨?_, ?_, rfl, handle, hreachable.releasable, rfl, rfl⟩,
        handle, hreachable, rfl, rfl⟩
      · constructor
        · intro hcallable
          exact absurd rfl hcallable
        · rintro ⟨outcome, houtcome, haccepted⟩
          cases houtcome
          rw [hrefused] at haccepted
          cases haccepted
      · intro _ hcallable
        exact absurd rfl hcallable
  | some called =>
      obtain ⟨outcome, next⟩ := called
      have htyped : obey (some (.typed handle)) (.call operation) =
          ⟨.outcome outcome, some (.typed next), []⟩ := by
        simp only [obey, Held.obey, Held.call, hcall]
      obtain ⟨hnext, haccepted, hdata⟩ := SomeTyped.call_erase_of_some hcall
      have hreachable' : next.Reachable := .call hreachable hcall
      rw [htyped, htracked, Response.ofReply, hnext]
      refine ⟨⟨?_, ?_, rfl, next, hreachable'.releasable, rfl, rfl⟩,
        next, hreachable', rfl, rfl⟩
      · constructor
        · intro _
          exact ⟨_, rfl, haccepted⟩
        · intro _ hanswer
          cases hanswer
      · intro hoperation _
        rw [hdata hoperation]

theorem Erased.slotAfter (h : Erased typed tracked) (operations : List Operation) :
    Erased (slotAfter typed (operations.map .call))
      (slotAfter tracked (operations.map .call)) := by
  induction operations generalizing typed tracked with
  | nil => exact h
  | cons operation rest ih => exact ih (h.parallel operation).2

/-! ## The switch -/

/-- Use a handle for some operations and give it up. -/
def useUp (operations : List Operation) : List Command :=
  operations.map .call ++ [.release]

/--
A new typed handle is used for a while, erased, and used further; next to it a
tracked handle is used all along.  While the one is typed, it has the operations
that the other accepts, asks for the same data, raises no events, and may be
given up.  After the erasure, which raises no event either, both are the same in
all that they answer, hold and raise, up to their release.
-/
theorem switch_agrees (early late : List Operation) :
    let switched := obeyAll (some (.new .typed)) (early.map .call ++ .erase :: useUp late)
    let stayed := obeyAll (some (.new .tracked)) (useUp (early ++ late))
    Typed.new.Releasable ∧
      (∀ (k : Nat) (operation : Operation), early[k]? = some operation → ∃ typed tracked,
        switched[k]? = some typed ∧ stayed[k]? = some tracked ∧
          Parallel operation typed tracked) ∧
      (∃ erased, switched[early.length]? = some erased ∧ erased.answer = .outcome .done ∧
        erased.events = []) ∧
      switched.drop (early.length + 1) = stayed.drop early.length := by
  intro switched stayed
  obtain ⟨handle, -, htyped, htracked⟩ := erased_new.slotAfter early
  have hstayed : stayed = obeyAll (some (.new .tracked)) (early.map .call) ++
      obeyAll (some (.tracked handle.handle.erase)) (useUp late) := by
    rw [← htracked, ← obeyAll_append, useUp, ← List.append_assoc, ← List.map_append]
    rfl
  have hswitched : switched = obeyAll (some (.new .typed)) (early.map .call) ++
      .done (some (.tracked handle.handle.erase)) [] ::
        obeyAll (some (.tracked handle.handle.erase)) (useUp late) := by
    have herase : obeyAll (some (.typed handle)) (.erase :: useUp late) =
        .done (some (.tracked handle.handle.erase)) [] ::
          obeyAll (some (.tracked handle.handle.erase)) (useUp late) := rfl
    rw [← herase, ← htyped, ← obeyAll_append]
  have hlength (form : Form) :
      (obeyAll (some (.new form)) (early.map .call)).length = early.length := by
    rw [length_obeyAll, List.length_map]
  have hcalled (form : Form) {k : Nat} {operation : Operation}
      (hoperation : early[k]? = some operation) :
      (obeyAll (some (.new form)) (early.map .call))[k]? =
        some (obey (slotAfter (some (.new form)) ((early.take k).map .call))
          (.call operation)) := by
    rw [getElem?_obeyAll, List.getElem?_map, hoperation, List.map_take, Option.map_some,
      Option.map_some]
  refine ⟨.inr rfl, ?_, ?_, ?_⟩
  · intro k operation hoperation
    have hk : k < early.length := (List.getElem?_eq_some_iff.1 hoperation).1
    refine ⟨_, _, ?_, ?_, ((erased_new.slotAfter (early.take k)).parallel operation).1⟩
    · rw [hswitched, List.getElem?_append_left (by rwa [hlength]), hcalled _ hoperation]
    · rw [hstayed, List.getElem?_append_left (by rwa [hlength]), hcalled _ hoperation]
  · refine ⟨.done (some (.tracked handle.handle.erase)) [], ?_, rfl, rfl⟩
    rw [hswitched, List.getElem?_append_right (Nat.le_of_eq (hlength _)), hlength, Nat.sub_self]
    rfl
  · rw [hswitched, hstayed, ← List.drop_drop, List.drop_left' (hlength .typed),
      List.drop_left' (hlength .tracked)]
    rfl

/-- A handle that is typed up to a query of its data is asked for the same data. -/
theorem switch_agrees_of_readable :
    let early : List Operation := [.read, .open, .read, .getData]
    let switched := obeyAll (some (.new .typed)) (early.map .call ++ .erase :: useUp [.close])
    let stayed := obeyAll (some (.new .tracked)) (useUp (early ++ [.close]))
    early[3]? = some .getData ∧ ∃ typed tracked,
      switched[3]? = some typed ∧ stayed[3]? = some tracked ∧
        typed.answer = .outcome (.data .sentinel) ∧ Parallel .getData typed tracked := by
  intro early switched stayed
  obtain ⟨-, hparallel, -, -⟩ := switch_agrees early [.close]
  obtain ⟨typed, tracked, htyped, htracked, hboth⟩ := hparallel 3 .getData rfl
  refine ⟨rfl, typed, tracked, htyped, htracked, ?_, hboth⟩
  cases htyped
  rfl

end Session

end HandleProtocol
