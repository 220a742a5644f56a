import HandleProtocol.Proofs.Sampling.Draws
import HandleProtocol.Proofs.Tracked.Accepted

/-!
# The sequences that are drawn

The operations that can be drawn are all the lists up to the bound.  The permitted
operations that can be drawn are those among them that a fresh tracked handle accepts.
Every state permits something, so each word selects one more permitted operation; and
each permitted operation of a state is selected by some word.
-/

namespace HandleProtocol

theorem State.mem_permitted_iff {state : State} {operation : Operation} :
    operation ∈ state.permitted ↔ ∃ next, state.transition operation = .ok next := by
  rw [permitted, List.mem_filter, permits_eq_true_iff]
  simp

theorem State.permitted_ne_nil (state : State) : state.permitted ≠ [] := by
  cases state <;> decide

theorem State.length_permitted_le (state : State) : state.permitted.length ≤ UInt64.size := by
  cases state <;> decide

namespace Sampling

/-! ## Permitted operations, one word at a time -/

theorem permittedPath_cons {state next : State} {operation : Operation} {word : Nat}
    (words : List Nat) (hselected : select? state.permitted word = some operation)
    (htable : state.transition operation = .ok next) :
    permittedPath state (word :: words) = operation :: permittedPath next words := by
  simp only [permittedPath, hselected, htable]

theorem exists_selected (state : State) (word : UInt64) :
    ∃ operation next, select? state.permitted word.toNat = some operation ∧
      state.transition operation = .ok next := by
  obtain ⟨operation, hselected⟩ := exists_select? state.permitted_ne_nil word.toNat_lt
  obtain ⟨next, htable⟩ := State.mem_permitted_iff.1 (List.mem_of_getElem? hselected)
  exact ⟨operation, next, hselected, htable⟩

theorem exists_leads_permittedPath (state : State) (words : List Nat) :
    ∃ last, state.Leads (permittedPath state words) last := by
  fun_induction permittedPath state words with
  | case1 state => exact ⟨state, .nil state⟩
  | case2 _ _ _ _ ih => exact ih
  | case3 _ _ _ _ _ next htable ih =>
      obtain ⟨last, hlast⟩ := ih
      exact ⟨last, .cons htable hlast⟩
  | case4 _ _ _ _ _ _ _ ih => exact ih

theorem length_permittedPath_le (state : State) (words : List Nat) :
    (permittedPath state words).length ≤ words.length := by
  fun_induction permittedPath state words with
  | case1 => exact Nat.le_refl _
  | case2 _ _ _ _ ih => exact Nat.le_succ_of_le ih
  | case3 _ _ _ _ _ _ _ ih => exact Nat.succ_le_succ ih
  | case4 _ _ _ _ _ _ _ ih => exact Nat.le_succ_of_le ih

theorem length_permittedPath (state : State) (words : List UInt64) :
    (permittedPath state (words.map UInt64.toNat)).length = words.length := by
  induction words generalizing state with
  | nil => rfl
  | cons word words ih =>
      obtain ⟨operation, next, hselected, htable⟩ := exists_selected state word
      rw [List.map_cons, permittedPath_cons _ hselected htable, List.length_cons, ih,
        List.length_cons]

/-- Each word selects its operation from what the state permits that was reached by then. -/
theorem getElem?_permittedPath {state : State} {words : List UInt64} {k : Nat} {word : UInt64}
    (h : words[k]? = some word) :
    let path := permittedPath state (words.map UInt64.toNat)
    ∃ operation, path[k]? = some operation ∧
      select? (state.afterAll (path.take k)).permitted word.toNat = some operation := by
  induction words generalizing state k with
  | nil => cases h
  | cons first words ih =>
      obtain ⟨operation, next, hselected, htable⟩ := exists_selected state first
      have hafter : state.after operation = next := by rw [State.after, htable]
      rw [List.map_cons, permittedPath_cons _ hselected htable]
      cases k with
      | zero =>
          cases h
          exact ⟨operation, rfl, hselected⟩
      | succ k =>
          simp only [List.getElem?_cons_succ, List.take_succ_cons, State.afterAll_cons, hafter]
          exact ih h

theorem exists_words {state last : State} {operations : List Operation}
    (h : state.Leads operations last) :
    ∃ words : List Nat, words.length = operations.length ∧
      (∀ word ∈ words, word < UInt64.size) ∧ permittedPath state words = operations := by
  induction h with
  | nil => exact ⟨[], rfl, by simp, rfl⟩
  | @cons state next last operation rest htable _ ih =>
      obtain ⟨words, hlength, hwords, hpath⟩ := ih
      obtain ⟨word, hword, hselected⟩ := exists_select?_eq state.length_permitted_le
        (State.mem_permitted_iff.2 ⟨next, htable⟩)
      refine ⟨word :: words, ?_, ?_, ?_⟩
      · rw [List.length_cons, List.length_cons, hlength]
      · exact List.forall_mem_cons.2 ⟨hword, hwords⟩
      · rw [permittedPath_cons words hselected htable, hpath]

/-! ## Lengths -/

theorem exists_reads_length {bound count : Nat} (hbound : bound < UInt32.size)
    (hcount : count ≤ bound) : ∃ source, Reads (length bound) source count :=
  exists_reads_below hbound (Nat.lt_succ_of_le hcount)

theorem le_of_length {bound count : Nat} {source rest : List UInt8}
    (h : length bound source = some (count, rest)) : count ≤ bound :=
  Nat.le_of_lt_succ (lt_of_below (Nat.succ_pos bound) h)

/-! ## Whole sequences -/

theorem exists_reads_operation (drawn : Operation) :
    ∃ source, Reads operation source drawn := by
  obtain ⟨number, hnumber, hselected⟩ :=
    exists_select?_eq (by decide) (Operation.mem_all drawn)
  refine ⟨bytes 8 number ++ [], (Reads.word hnumber).bind ?_⟩
  intro rest
  change (select? Operation.all number).bind (fun drawn => some (drawn, rest)) = _
  rw [hselected]
  rfl

theorem exists_draw_operations_iff {bound : Nat} (hbound : bound < UInt32.size)
    {drawn : List Operation} :
    (∃ source, value? (operations bound) source = some drawn) ↔ drawn.length ≤ bound := by
  constructor
  · rintro ⟨source, h⟩
    obtain ⟨rest, h⟩ := value?_eq_some_iff.1 h
    obtain ⟨count, left, hcount, h⟩ := bind_eq_some_iff.1 h
    rw [length_of_replicate h]
    exact le_of_length hcount
  · intro hlength
    obtain ⟨first, hfirst⟩ := exists_reads_length hbound hlength
    obtain ⟨later, hlater⟩ :=
      exists_reads_replicate fun operation (_ : operation ∈ drawn) =>
        exists_reads_operation operation
    exact ⟨first ++ later, (hfirst.bind hlater).value?⟩

theorem exists_draw_permittedOperations_iff {bound : Nat} (hbound : bound < UInt32.size)
    {drawn : List Operation} :
    (∃ source, value? (permittedOperations bound) source = some drawn) ↔
      drawn.length ≤ bound ∧ Implementation.tracked.Accepts drawn := by
  rw [Tracked.accepts_iff]
  constructor
  · rintro ⟨source, h⟩
    obtain ⟨rest, h⟩ := value?_eq_some_iff.1 h
    obtain ⟨count, left, hcount, h⟩ := bind_eq_some_iff.1 h
    obtain ⟨words, last, hwords, h⟩ := bind_eq_some_iff.1 h
    cases h
    refine ⟨?_, exists_leads_permittedPath .initial words⟩
    calc (permittedPath .initial words).length
      _ ≤ words.length := length_permittedPath_le _ _
      _ = count := length_of_replicate hwords
      _ ≤ bound := le_of_length hcount
  · rintro ⟨hlength, last, hleads⟩
    obtain ⟨words, hwords, hnumbers, hpath⟩ := exists_words hleads
    rw [← hwords] at hlength
    obtain ⟨first, hfirst⟩ := exists_reads_length hbound hlength
    obtain ⟨later, hlater⟩ := exists_reads_replicate fun number hnumber =>
      ⟨bytes 8 number, Reads.word (hnumbers number hnumber)⟩
    have hdrawn : Reads (permittedOperations bound) (first ++ (later ++ [])) drawn := by
      rw [← hpath]
      exact hfirst.bind (hlater.bind (.pure _))
    exact ⟨_, hdrawn.value?⟩

/--
The sequences that can be drawn are the lists up to the bound, and the permitted
sequences are those of them that a fresh tracked handle accepts.  However the words
come out, there is always something to select from, and no word is passed over.
-/
theorem drawn_exactly {bound : Nat} (hbound : bound < UInt32.size) :
    (∀ drawn : List Operation,
      (∃ source, value? (operations bound) source = some drawn) ↔ drawn.length ≤ bound) ∧
    (∀ drawn : List Operation,
      (∃ source, value? (permittedOperations bound) source = some drawn) ↔
        drawn.length ≤ bound ∧ Implementation.tracked.Accepts drawn) ∧
    ∀ words : List UInt64,
      let path := permittedPath .initial (words.map UInt64.toNat)
      path.length = words.length ∧
        ∀ (k : Nat) (word : UInt64), words[k]? = some word →
          let permitted := (State.initial.afterAll (path.take k)).permitted
          permitted ≠ [] ∧ ∃ operation, path[k]? = some operation ∧
            select? permitted word.toNat = some operation := by
  refine ⟨?_, ?_, ?_⟩
  · intro drawn
    exact exists_draw_operations_iff hbound
  · intro drawn
    exact exists_draw_permittedOperations_iff hbound
  · intro words path
    refine ⟨length_permittedPath .initial words, ?_⟩
    intro k word hword permitted
    exact ⟨State.permitted_ne_nil _, getElem?_permittedPath hword⟩

/-- A whole cycle can be drawn; a second close can be drawn only where anything can. -/
theorem drawn_exactly_of_double_close :
    4096 < UInt32.size ∧
      (∃ source, value? (permittedOperations 4096) source =
        some [.open, .read, .getData, .close]) ∧
      (∃ source, value? (operations 4096) source = some [.open, .close, .close]) ∧
      ¬ ∃ source, value? (permittedOperations 4096) source = some [.open, .close, .close] := by
  have hbound : 4096 < UInt32.size := by decide
  obtain ⟨hall, hpermitted, -⟩ := drawn_exactly hbound
  refine ⟨hbound, (hpermitted _).2 ⟨by decide, by decide⟩, (hall _).2 (by decide), ?_⟩
  intro hdrawn
  exact absurd ((hpermitted _).1 hdrawn).2 (by decide)

end Sampling

end HandleProtocol
