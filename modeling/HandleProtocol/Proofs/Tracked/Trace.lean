import HandleProtocol.Handle.Tracked
import Mathlib.Data.List.Basic

/-!
# The events of a tracked handle

The events that a tracked handle raises form a trace: each move is one of the
transition table and begins where the one before it ended, and a rejection is of
the state that is then in force.  So the state of the handle can be told at any
time from the events alone.
-/

namespace HandleProtocol

structure Move where
  operation : Operation
  source : State
  target : State
  deriving DecidableEq, Repr

def Event.move? : Event → Option Move
  | .moved operation source target => some ⟨operation, source, target⟩
  | .rejected _ _ _ => none
  | .released _ => none

def moves (events : List Event) : List Move := events.filterMap Event.move?

/-- Where the last move ended; without a move, where the events began. -/
def inForce (start : State) (events : List Event) : State :=
  ((moves events).getLast?.map Move.target).getD start

inductive Trace : State → List Event → State → Prop
  | nil (state : State) : Trace state [] state
  | moved {source target last : State} {operation : Operation} {rest : List Event} :
      source.transition operation = .ok target → Trace target rest last →
        Trace source (.moved operation source target :: rest) last
  | rejected {state last : State} {operation : Operation} {refusal : Refusal}
      {rest : List Event} :
      state.transition operation = .error refusal → Trace state rest last →
        Trace state (.rejected operation state refusal :: rest) last

namespace Trace

variable {start middle last : State} {events first second : List Event}

theorem append (hfirst : Trace start first middle) (hsecond : Trace middle second last) :
    Trace start (first ++ second) last := by
  induction hfirst with
  | nil => exact hsecond
  | moved htable _ ih => exact .moved htable (ih hsecond)
  | rejected htable _ ih => exact .rejected htable (ih hsecond)

theorem split (h : Trace start (first ++ second) last) :
    ∃ middle, Trace start first middle ∧ Trace middle second last := by
  induction first generalizing start with
  | nil => exact ⟨start, .nil start, h⟩
  | cons event first ih =>
      cases h with
      | moved htable hrest =>
          obtain ⟨middle, hfirst, hsecond⟩ := ih hrest
          exact ⟨middle, .moved htable hfirst, hsecond⟩
      | rejected htable hrest =>
          obtain ⟨middle, hfirst, hsecond⟩ := ih hrest
          exact ⟨middle, .rejected htable hfirst, hsecond⟩

/-! ## What can be told from a trace -/

theorem not_released (h : Trace start events last) :
    ∀ event ∈ events, event.isReleased = false := by
  induction h with
  | nil => simp
  | moved _ _ ih => simpa [Event.isReleased] using ih
  | rejected _ _ ih => simpa [Event.isReleased] using ih

theorem inForce_eq (h : Trace start events last) : inForce start events = last := by
  induction h with
  | nil => rfl
  | @moved source target last operation rest _ _ ih =>
      have hmoves : moves (.moved operation source target :: rest) =
          ⟨operation, source, target⟩ :: moves rest := rfl
      rw [← ih, inForce, inForce, hmoves, List.getLast?_cons]
      cases (moves rest).getLast? <;> rfl
  | rejected _ _ ih => exact ih

theorem accepted (h : Trace start events last) :
    ∀ move ∈ moves events, move.source.transition move.operation = .ok move.target := by
  induction h with
  | nil => simp [moves]
  | @moved source target last operation rest htable _ ih =>
      have hmoves : moves (.moved operation source target :: rest) =
          ⟨operation, source, target⟩ :: moves rest := rfl
      rw [hmoves, List.forall_mem_cons]
      exact ⟨htable, ih⟩
  | rejected _ _ ih => exact ih

theorem source_of_first (h : Trace start events last) {move : Move}
    (hfirst : (moves events)[0]? = some move) : move.source = start := by
  induction h with
  | nil => cases hfirst
  | moved _ _ _ =>
      cases hfirst
      rfl
  | rejected _ _ ih => exact ih hfirst

theorem source_of_next (h : Trace start events last) {k : Nat} {earlier later : Move}
    (hearlier : (moves events)[k]? = some earlier)
    (hlater : (moves events)[k + 1]? = some later) : later.source = earlier.target := by
  induction h generalizing k with
  | nil => cases hearlier
  | moved _ hrest ih =>
      cases k with
      | zero =>
          cases hearlier
          exact hrest.source_of_first hlater
      | succ k => exact ih hearlier hlater
  | rejected _ _ ih => exact ih hearlier hlater

theorem rejected_inForce (h : Trace start events last) {k : Nat} {operation : Operation}
    {state : State} {refusal : Refusal}
    (hevent : events[k]? = some (.rejected operation state refusal)) :
    state = inForce start (events.take k) ∧ state.transition operation = .error refusal := by
  obtain ⟨hk, hevent⟩ := List.getElem?_eq_some_iff.1 hevent
  have hsplit : events = events.take k ++ .rejected operation state refusal ::
      events.drop (k + 1) := by
    rw [← hevent, ← List.drop_eq_getElem_cons hk, List.take_append_drop]
  rw [hsplit] at h
  obtain ⟨middle, hbefore, hafter⟩ := h.split
  rw [hbefore.inForce_eq]
  cases hafter with
  | rejected htable _ => exact ⟨rfl, htable⟩

end Trace

/-! ## Calls and runs -/

namespace Tracked

/-- Querying the data leaves the state as it is. -/
theorem eq_of_transition_getData {state next : State}
    (h : state.transition .getData = .ok next) : next = state := by
  cases state <;> cases h
  rfl

theorem trace_call (handle : Tracked) (operation : Operation) :
    Trace handle.state (handle.call operation).events (handle.call operation).handle.state := by
  cases htable : handle.state.transition operation with
  | error refusal =>
      rw [call_of_error htable]
      exact .rejected htable (.nil _)
  | ok next =>
      rw [call_of_ok htable]
      cases operation with
      | getData =>
          -- The one silent operation.
          rw [eq_of_transition_getData htable]
          exact .nil handle.state
      | _ => exact .moved htable (.nil next)

theorem trace_run (handle : Tracked) (operations : List Operation) :
    let ran := Implementation.tracked.run operations handle
    Trace handle.state ran.events ran.handle.state := by
  induction operations generalizing handle with
  | nil => exact .nil handle.state
  | cons operation rest ih =>
      rw [Implementation.run_cons, Implementation.perform_tracked]
      exact (handle.trace_call operation).append (ih _)

end Tracked

/-! ## Whole lives -/

/-- The events of a life hang together, and its release is the last of them. -/
structure Coherent (log : List Event) : Prop where
  begins : ∀ move, (moves log)[0]? = some move → move.source = .closed
  linked : ∀ (k : Nat) earlier later, (moves log)[k]? = some earlier →
    (moves log)[k + 1]? = some later → later.source = earlier.target
  accepted : ∀ move ∈ moves log, move.source.transition move.operation = .ok move.target
  rejected : ∀ (k : Nat) operation state refusal,
    log[k]? = some (.rejected operation state refusal) →
      state = inForce .closed (log.take k) ∧ state.transition operation = .error refusal
  released : ∃ events, log = events ++ [.released (inForce .closed log)] ∧
    ∀ event ∈ events, event.isReleased = false

theorem Trace.coherent {events : List Event} {last : State} (h : Trace .closed events last) :
    Coherent (events ++ [.released last]) := by
  have hmoves : moves (events ++ [.released last]) = moves events := by
    simp [moves, Event.move?]
  have hlast : inForce .closed (events ++ [.released last]) = last := by
    rw [inForce, hmoves]
    exact h.inForce_eq
  constructor
  case begins =>
    rw [hmoves]
    exact fun move hmove => h.source_of_first hmove
  case linked =>
    rw [hmoves]
    exact fun k earlier later hearlier hlater => h.source_of_next hearlier hlater
  case accepted =>
    rw [hmoves]
    exact h.accepted
  case rejected =>
    intro k operation state refusal hevent
    have hk : k < events.length := by
      by_contra hge
      rw [List.getElem?_append_right (by omega)] at hevent
      have hreleased := List.mem_singleton.1 (List.mem_of_getElem? hevent)
      cases hreleased
    rw [List.getElem?_append_left hk] at hevent
    rw [List.take_append_of_le_length (by omega)]
    exact h.rejected_inForce hevent
  case released =>
    rw [hlast]
    exact ⟨events, rfl, h.not_released⟩

end HandleProtocol
