import HandleProtocol.Proofs.Tracked.Accepted
import Mathlib.Computability.RegularExpressions
import Mathlib.Order.Bounds.Defs

/-!
# The language of the lifecycle

A life is made of cycles: the handle is opened, it may be read and then queried any
number of times, and it is closed.  A fresh tracked handle accepts the beginnings of
the words of this language, and is closed again after the words themselves.

Every state has a language of its own, of the words that end in a closed state.  An
operation at the front of such a word is one that the table permits, and the rest of
the word is of the language of the next state.
-/

namespace HandleProtocol

open Computability

namespace Lifecycle

/-- An open; a read and any number of queries, or neither; a close. -/
def cycle : RegularExpression Operation :=
  .char .open * (1 + .char .read * .star (.char .getData)) * .char .close

/-- The words of whole cycles. -/
def language : Language Operation := cycle.star.matches'

/-- The words that end the cycle that a state is in, and go on in whole cycles. -/
def words : State → Language Operation
  | .closed => language
  | .open => (1 + {[.read]} * {[.getData]}∗) * ({[.close]} * language)
  | .readable => {[.getData]}∗ * ({[.close]} * language)

/-- The lists with which words begin. -/
def beginnings : Language Operation := {early | ∃ word ∈ language, early <+: word}

/-! ## One operation -/

theorem words_closed : words .closed = 1 + {[.open]} * words .open := by
  have hcycle : cycle.matches' =
      {[.open]} * (1 + {[.read]} * {[.getData]}∗) * {[.close]} := rfl
  calc words .closed
    _ = 1 + cycle.matches' * language := (Language.one_add_self_mul_kstar_eq_kstar _).symm
    _ = 1 + {[.open]} * words .open := by rw [hcycle, mul_assoc, mul_assoc, words]

theorem words_open :
    words .open = {[.read]} * words .readable + {[.close]} * words .closed := by
  rw [words, words, words, add_mul, one_mul, mul_assoc, add_comm]

theorem words_readable :
    words .readable = {[.getData]} * words .readable + {[.close]} * words .closed := by
  calc words .readable
    _ = (1 + {[.getData]} * {[.getData]}∗) * ({[.close]} * language) := by
      rw [Language.one_add_self_mul_kstar_eq_kstar, words]
    _ = {[.getData]} * words .readable + {[.close]} * words .closed := by
      rw [add_mul, one_mul, add_comm, mul_assoc, words, words]

theorem nil_not_mem_singleton_mul (operation : Operation) (later : Language Operation) :
    [] ∉ ({[operation]} * later : Language Operation) := by
  rw [Language.mem_mul]
  rintro ⟨first, hfirst, rest, -, hnil⟩
  cases hfirst
  cases hnil

theorem cons_mem_singleton_mul_iff {operation first : Operation} {rest : List Operation}
    {later : Language Operation} :
    first :: rest ∈ ({[operation]} * later : Language Operation) ↔
      first = operation ∧ rest ∈ later := by
  rw [Language.mem_mul]
  constructor
  · rintro ⟨begin, hbegin, late, hlate, hsplit⟩
    cases hbegin
    cases hsplit
    exact ⟨rfl, hlate⟩
  · rintro ⟨rfl, hrest⟩
    exact ⟨[first], rfl, rest, hrest, rfl⟩

theorem nil_mem_words_iff {state : State} : [] ∈ words state ↔ state = .closed := by
  cases state with
  | closed =>
      rw [words_closed, Language.mem_add]
      exact iff_of_true (.inl rfl) rfl
  | «open» =>
      rw [words_open, Language.mem_add]
      simp [nil_not_mem_singleton_mul]
  | readable =>
      rw [words_readable, Language.mem_add]
      simp [nil_not_mem_singleton_mul]

theorem cons_mem_words_iff {state : State} {operation : Operation} {rest : List Operation} :
    operation :: rest ∈ words state ↔
      ∃ next, state.transition operation = .ok next ∧ rest ∈ words next := by
  cases state with
  | closed =>
      rw [words_closed, Language.mem_add, cons_mem_singleton_mul_iff]
      cases operation <;> simp [State.transition, Language.mem_one]
  | «open» =>
      rw [words_open, Language.mem_add, cons_mem_singleton_mul_iff, cons_mem_singleton_mul_iff]
      cases operation <;> simp [State.transition]
  | readable =>
      rw [words_readable, Language.mem_add, cons_mem_singleton_mul_iff,
        cons_mem_singleton_mul_iff]
      cases operation <;> simp [State.transition]

/-! ## Whole words -/

theorem mem_words_iff {state : State} {operations : List Operation} :
    operations ∈ words state ↔ state.Leads operations .closed := by
  induction operations generalizing state with
  | nil =>
      rw [nil_mem_words_iff]
      constructor
      · rintro rfl
        exact .nil .closed
      · intro h
        cases h
        rfl
  | cons operation rest ih =>
      rw [cons_mem_words_iff, State.Leads.cons_iff]
      simp only [ih]

theorem mem_language_iff {operations : List Operation} :
    operations ∈ language ↔ State.initial.Leads operations .closed := by
  change operations ∈ words .closed ↔ _
  exact mem_words_iff

/-- From every state a close ends the cycle, if it has not ended already. -/
theorem exists_leads_closed (state : State) : ∃ rest, state.Leads rest .closed := by
  cases state with
  | closed => exact ⟨[], .nil .closed⟩
  | «open» => exact ⟨[.close], .cons rfl (.nil .closed)⟩
  | readable => exact ⟨[.close], .cons rfl (.nil .closed)⟩

theorem mem_beginnings_iff {operations : List Operation} :
    operations ∈ beginnings ↔ ∃ last, State.initial.Leads operations last := by
  constructor
  · rintro ⟨word, hword, rest, rfl⟩
    obtain ⟨last, hleads, -⟩ := (mem_language_iff.1 hword).split
    exact ⟨last, hleads⟩
  · rintro ⟨last, hleads⟩
    obtain ⟨rest, hrest⟩ := exists_leads_closed last
    exact ⟨operations ++ rest, mem_language_iff.2 (hleads.append hrest),
      List.prefix_append _ _⟩

end Lifecycle

namespace Tracked

open Lifecycle

theorem accepts_iff_mem_beginnings {operations : List Operation} :
    Implementation.tracked.Accepts operations ↔ operations ∈ beginnings :=
  accepts_iff.trans mem_beginnings_iff.symm

theorem mem_language_iff_closed {operations : List Operation} :
    operations ∈ language ↔ Implementation.tracked.Accepts operations ∧
      (Implementation.tracked.reached operations).state = .closed := by
  rw [mem_language_iff, accepts_iff, state_reached]
  constructor
  · intro hleads
    exact ⟨⟨.closed, hleads⟩, hleads.afterAll_eq⟩
  · rintro ⟨⟨last, hleads⟩, hclosed⟩
    rw [hleads.afterAll_eq] at hclosed
    rwa [hclosed] at hleads

/--
A fresh handle accepts a list of operations exactly if the list begins a word of the
lifecycle, and is closed again at its end exactly if the list is a word.  In any
list, the first step that is refused is where the longest such beginning ends.
-/
theorem accepts_language (operations : List Operation) :
    (Implementation.tracked.Accepts operations ↔ operations ∈ beginnings) ∧
      (operations ∈ language ↔ Implementation.tracked.Accepts operations ∧
        (Implementation.tracked.reached operations).state = .closed) ∧
      IsGreatest {k | k ≤ operations.length ∧ operations.take k ∈ beginnings}
        (Implementation.tracked.firstRefused operations) := by
  refine ⟨accepts_iff_mem_beginnings, mem_language_iff_closed, ?_, ?_⟩
  · have haccepted := Implementation.tracked.accepts_take_firstRefused operations
    exact ⟨Implementation.tracked.firstRefused_le operations,
      accepts_iff_mem_beginnings.1 haccepted⟩
  · rintro k ⟨hk, hbegin⟩
    rw [← List.length_take_of_le hk]
    exact Implementation.length_le_firstRefused (accepts_iff_mem_beginnings.2 hbegin)
      (List.take_prefix k operations)

end Tracked

end HandleProtocol
