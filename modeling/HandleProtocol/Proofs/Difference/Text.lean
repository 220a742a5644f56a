import HandleProtocol.Handle.Tracked
import HandleProtocol.Handle.Unchecked
import HandleProtocol.Proofs.Difference.Basic
import HandleProtocol.Proofs.Text.Outcome

/-!
# The text of a difference

The text of a difference tells its index, its operation and both outcomes.  The number
ends at the blank, the name is prefix-free and so ends anywhere, the outcome that was
expected ends at the comma, and the other one is all that is left.
-/

namespace HandleProtocol.Difference

theorem endsAt_index : EndsAt Nat.repr " (" := by
  have hnumber : EndsAt Int.repr " (" := endsAt_repr rfl (by decide) (by decide)
  have hrepr : Nat.repr = Int.repr ∘ Int.ofNat := rfl
  rw [hrepr]
  exact hnumber.comp fun _ _ => Int.ofNat.inj

theorem message_injective : Function.Injective message := by
  intro first second h
  simp only [message, String.append_assoc, String.append_right_inj, endsAt_index.append_inj,
    Operation.prefixFree_name.append_inj, Outcome.endsAt_summary.append_inj] at h
  obtain ⟨hindex, hoperation, hexpected, hsummary⟩ := h
  have hactual := Outcome.endsAt_summary.injective hsummary
  cases first
  cases second
  simp_all

theorem summary_ne_of_mem {σ τ : Type} {reference : Implementation σ}
    {candidate : Implementation τ} {operations : List Operation} {difference : Difference}
    (h : difference ∈ differences reference candidate operations) :
    difference.expected.summary ≠ difference.actual.summary := by
  obtain ⟨-, -, -, hne⟩ := mem_differences.1 h
  exact Outcome.endsAt_summary.injective.ne hne

/--
The text of a difference loses nothing: two differences with the same text are the same,
whatever their outcomes are.  Where two handles differ, the texts after "expected" and
after "got" differ too.
-/
theorem text_loses_nothing :
    (∀ first second : Difference, first.message = second.message → first = second) ∧
      ∀ (σ τ : Type) (reference : Implementation σ) (candidate : Implementation τ)
        (operations : List Operation),
        ∀ difference ∈ differences reference candidate operations,
          ∃ heading expected actual : String,
            difference.message = heading ++ ": expected " ++ expected ++ ", got " ++ actual ∧
              expected = difference.expected.summary ∧
              actual = difference.actual.summary ∧ expected ≠ actual := by
  refine ⟨fun first second h => message_injective h, ?_⟩
  intro σ τ reference candidate operations difference hmem
  refine ⟨"step " ++ difference.index.repr ++ " (" ++ difference.operation.name ++ ")",
    _, _, ?_, rfl, rfl, summary_ne_of_mem hmem⟩
  simp only [message, String.append_assoc, String.append_right_inj]
  rfl

/-- A refused close and a double close look different, and so do the two outcomes of an
early read. -/
theorem text_loses_nothing_of_double_close :
    let refused : Difference := ⟨10, .close, .refused (.notPermitted .close .closed), .done⟩
    let doubled : Difference := ⟨10, .close, .refused .alreadyClosed, .done⟩
    let early : Difference := ⟨0, .read, .refused (.notPermitted .read .closed), .data .sentinel⟩
    refused ≠ doubled ∧ refused.message ≠ doubled.message ∧
      early ∈ differences .tracked .unchecked [.read] ∧
      ∃ heading expected actual : String,
        early.message = heading ++ ": expected " ++ expected ++ ", got " ++ actual ∧
          expected ≠ actual := by
  intro refused doubled early
  have hne : refused ≠ doubled := by decide
  have hmem : early ∈ differences .tracked .unchecked [.read] := by decide
  obtain ⟨hinjective, hshown⟩ := text_loses_nothing
  obtain ⟨heading, expected, actual, hmessage, -, -, hdiffer⟩ :=
    hshown Tracked Unchecked .tracked .unchecked [.read] early hmem
  exact ⟨hne, fun h => hne (hinjective refused doubled h), hmem, heading, expected, actual,
    hmessage, hdiffer⟩

end HandleProtocol.Difference
