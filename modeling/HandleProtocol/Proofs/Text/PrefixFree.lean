import Mathlib

/-!
# Where a text ends

A message puts the texts of several values in a row and quotes none of them.  The values
can be told from it all the same if each text shows where it ends: because no text of
its kind is the beginning of another one, or because it is followed by a mark that does
not begin with a character of the text.
-/

namespace HandleProtocol

/-- Whatever follows the text of a value, the value can be told. -/
def PrefixFree {α : Type} (text : α → String) : Prop :=
  ∀ ⦃first second : α⦄ ⦃rest rest' : String⦄,
    text first ++ rest = text second ++ rest' → first = second

/-- Where the mark follows the text of a value, the value can be told. -/
def EndsAt {α : Type} (text : α → String) (mark : String) : Prop :=
  PrefixFree fun a => text a ++ mark

variable {α β : Type} {text : α → String} {mark : String} {first second : α}
  {rest rest' : String}

theorem PrefixFree.append_inj (h : PrefixFree text) :
    text first ++ rest = text second ++ rest' ↔ first = second ∧ rest = rest' := by
  constructor
  · intro heq
    obtain rfl := h heq
    simpa using heq
  · rintro ⟨rfl, rfl⟩
    rfl

theorem PrefixFree.injective (h : PrefixFree text) : Function.Injective text := by
  intro first second heq
  exact h (congrArg (· ++ "") heq)

theorem EndsAt.append_inj (h : EndsAt text mark) :
    text first ++ (mark ++ rest) = text second ++ (mark ++ rest') ↔
      first = second ∧ rest = rest' := by
  rw [← String.append_assoc, ← String.append_assoc]
  exact PrefixFree.append_inj h

theorem EndsAt.injective (h : EndsAt text mark) : Function.Injective text := by
  intro first second heq
  exact PrefixFree.injective h (congrArg (· ++ mark) heq)

theorem EndsAt.comp (h : EndsAt text mark) {value : β → α}
    (hvalue : Function.Injective value) : EndsAt (text ∘ value) mark :=
  fun _ _ _ _ heq => hvalue (h heq)

/-- A text ends where a character stands that no text has. -/
theorem endsAt_of_notMem {sign : Char} {signs : List Char}
    (hinjective : Function.Injective text) (hmark : mark.toList = sign :: signs)
    (hnot : ∀ a, sign ∉ (text a).toList) : EndsAt text mark := by
  have hread (a : α) (rest : String) :
      (text a ++ mark ++ rest).toList.takeWhile (fun c => decide (c ≠ sign)) =
        (text a).toList := by
    have hall : ∀ c ∈ (text a).toList, decide (c ≠ sign) = true := by
      intro c hc
      simpa using ne_of_mem_of_not_mem hc (hnot a)
    simp only [String.toList_append, hmark, List.append_assoc, List.cons_append]
    rw [List.takeWhile_append_of_pos hall]
    simp
  intro first second rest rest' h
  apply hinjective
  apply String.toList_injective
  rw [← hread first rest, h, hread]

/-! ## Names -/

/-- Finitely many names are prefix-free if none of them is the beginning of another. -/
theorem prefixFree_of_names {all : List α} (hall : ∀ a, a ∈ all)
    (h : ∀ a ∈ all, ∀ b ∈ all, (text a).toList <+: (text b).toList → a = b) :
    PrefixFree text := by
  intro first second rest rest' heq
  have hfirst : (text first).toList <+: (text first ++ rest).toList := by simp
  have hsecond : (text second).toList <+: (text first ++ rest).toList := by simp [heq]
  rcases List.prefix_or_prefix_of_prefix hfirst hsecond with hle | hle
  · exact h first (hall first) second (hall second) hle
  · exact (h second (hall second) first (hall first) hle).symm

/-! ## Numbers -/

theorem eq_minus_or_isDigit_of_mem_repr {n : Int} {c : Char} (h : c ∈ n.repr.toList) :
    c = '-' ∨ c.isDigit = true := by
  cases n with
  | ofNat n =>
      right
      rw [Int.repr, Nat.toList_repr] at h
      exact Nat.isDigit_of_mem_toDigits (by decide) (by decide) h
  | negSucc n =>
      rw [Int.repr, String.toList_append, Nat.toList_repr, List.mem_append] at h
      rcases h with h | h
      · left
        simpa using h
      · right
        exact Nat.isDigit_of_mem_toDigits (by decide) (by decide) h

/-- A number ends at any character that is neither a digit nor a minus sign. -/
theorem endsAt_repr {sign : Char} {signs : List Char} (hmark : mark.toList = sign :: signs)
    (hminus : sign ≠ '-') (hdigit : sign.isDigit = false) : EndsAt Int.repr mark := by
  apply endsAt_of_notMem (fun _ _ => Int.repr_injective) hmark
  intro n hn
  rcases eq_minus_or_isDigit_of_mem_repr hn with h | h
  · exact hminus h
  · simp [hdigit] at h

end HandleProtocol
