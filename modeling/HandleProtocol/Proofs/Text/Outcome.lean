import HandleProtocol.Outcome
import HandleProtocol.Proofs.Text.PrefixFree

/-!
# The texts of outcomes

Operations, states, refusals and outcomes can be told from their texts.  All of them show
by themselves where they end, except for the summary of an outcome: it ends at the comma
that separates it from the next one.
-/

namespace HandleProtocol

/-! ## Names -/

theorem Operation.prefixFree_name : PrefixFree name :=
  prefixFree_of_names mem_all (by decide)

theorem Operation.prefixFree_inspect : PrefixFree inspect :=
  prefixFree_of_names mem_all (by decide)

theorem State.prefixFree_name : PrefixFree name :=
  prefixFree_of_names mem_all (by decide)

theorem State.prefixFree_inspect : PrefixFree inspect :=
  prefixFree_of_names mem_all (by decide)

/-! ## Payloads and refusals -/

theorem Payload.endsAt_text {mark : String} {sign : Char} {signs : List Char}
    (hmark : mark.toList = sign :: signs) (hminus : sign ≠ '-')
    (hdigit : sign.isDigit = false) : EndsAt text mark :=
  (endsAt_repr hmark hminus hdigit).comp fun _ _ => toInt_injective

theorem Refusal.prefixFree_message : PrefixFree message := by
  intro first second rest rest' h
  cases first with
  | notPermitted operation state =>
      cases second with
      | notPermitted operation' state' =>
          simp only [message, String.append_assoc, Operation.prefixFree_name.append_inj,
            String.append_right_inj, State.prefixFree_name.append_inj] at h
          rw [h.1, h.2.1]
      | alreadyClosed =>
          cases operation <;> simp [← String.toList_inj, message, Operation.name] at h
  | alreadyClosed =>
      cases second with
      | notPermitted operation' state' =>
          cases operation' <;> simp [← String.toList_inj, message, Operation.name] at h
      | alreadyClosed => rfl

theorem Refusal.inspect_notPermitted (operation : Operation) (state : State) :
    (notPermitted operation state).inspect = "InvalidTransition \x7b operation: " ++
      operation.inspect ++ ", state: " ++ state.inspect ++ " \x7d" := rfl

theorem Refusal.inspect_alreadyClosed : alreadyClosed.inspect = "AlreadyClosed" := rfl

theorem Refusal.prefixFree_inspect : PrefixFree inspect := by
  intro first second rest rest' h
  cases first with
  | notPermitted operation state =>
      cases second with
      | notPermitted operation' state' =>
          simp only [inspect_notPermitted, String.append_assoc, String.append_right_inj,
            Operation.prefixFree_inspect.append_inj, State.prefixFree_inspect.append_inj] at h
          rw [h.1, h.2.1]
      | alreadyClosed =>
          simp [← String.toList_inj, inspect_notPermitted, inspect_alreadyClosed] at h
  | alreadyClosed =>
      cases second with
      | notPermitted operation' state' =>
          simp [← String.toList_inj, inspect_notPermitted, inspect_alreadyClosed] at h
      | alreadyClosed => rfl

/-! ## Outcomes -/

namespace Outcome

theorem prefixFree_inspect : PrefixFree inspect := by
  have hpayload : EndsAt Payload.text ")" := Payload.endsAt_text rfl (by decide) (by decide)
  intro first second rest rest' h
  cases first with
  | done => cases second <;> simp [← String.toList_inj, inspect] at h ⊢
  | data payload =>
      cases second with
      | data payload' =>
          simp only [inspect, Payload.inspect, String.append_assoc, String.append_right_inj,
            hpayload.append_inj] at h
          rw [h.1]
      | _ => simp [← String.toList_inj, inspect] at h
  | refused refusal =>
      cases second with
      | refused refusal' =>
          simp only [inspect, String.append_assoc, String.append_right_inj,
            Refusal.prefixFree_inspect.append_inj] at h
          rw [h.1]
      | _ => simp [← String.toList_inj, inspect] at h

theorem endsAt_summary : EndsAt summary ", got " := by
  have hpayload : EndsAt Payload.text ")" := Payload.endsAt_text rfl (by decide) (by decide)
  intro first second rest rest' h
  cases first with
  | done => cases second <;> simp [← String.toList_inj, summary] at h ⊢
  | data payload =>
      cases second with
      | data payload' =>
          simp only [summary, String.append_assoc, String.append_right_inj,
            hpayload.append_inj] at h
          rw [h.1]
      | _ => simp [← String.toList_inj, summary] at h
  | refused refusal =>
      cases second with
      | refused refusal' =>
          simp only [summary, String.append_assoc, String.append_right_inj,
            Refusal.prefixFree_message.append_inj] at h
          rw [h.1]
      | _ => simp [← String.toList_inj, summary] at h

end Outcome

end HandleProtocol
