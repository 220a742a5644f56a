import HandleProtocol.Handle.Scripted
import HandleProtocol.Proofs.Contract.Agreement
import HandleProtocol.RoundTrip

/-!
# The round trip stops at the first refusal

A run goes on after a refusal, and the round trip does not.  Up to there they do the
same: the round trip carries out the operations of the run up to the first that is
refused, and its answer can be read off the steps of the run.
-/

namespace HandleProtocol

def Step.refusal? (step : Step) : Option Refusal :=
  match step.outcome with
  | .refused refusal => some refusal
  | _ => none

theorem Step.refusal?_eq_none_iff {step : Step} :
    step.refusal? = none ↔ step.outcome.isRefused = false := by
  cases step with
  | mk operation outcome => cases outcome <;> simp [refusal?, Outcome.isRefused]

/-- The outcome that the answer of a call shows as, given how its values do. -/
def Outcome.ofAnswer {α : Type} (shown : α → Outcome) : Except Refusal α → Outcome
  | .ok a => shown a
  | .error refusal => .refused refusal

namespace Implementation

variable {σ α β : Type} {impl : Implementation σ}

/-! ## Calls that stop at the first refusal -/

/-- The call performs an operation, and its values show as outcomes. -/
structure Performs (impl : Implementation σ) (operation : Operation)
    (call : Call σ Refusal α) (shown : α → Outcome) : Prop where
  perform_eq (handle : σ) :
    impl.perform operation handle = (call handle).map (Outcome.ofAnswer shown)
  accepted (a : α) : (shown a).isRefused = false

/-- The operations up to the first that is refused. -/
def carriedOut (impl : Implementation σ) (operations : List Operation) (handle : σ) :
    List Operation :=
  operations.take
    (((impl.run operations handle).answer.findIdx fun step => step.outcome.isRefused) + 1)

/-- The answer is the first refusal, or a value that goes with the outcomes. -/
inductive Concludes (value : List Outcome → α → Prop) (steps : List Step) :
    Except Refusal α → Prop
  | refused {refusal : Refusal} : steps.findSome? Step.refusal? = some refusal →
      Concludes value steps (.error refusal)
  | accepted {a : α} : steps.findSome? Step.refusal? = none →
      value (steps.map Step.outcome) a → Concludes value steps (.ok a)

theorem Concludes.of_some {value : List Outcome → α → Prop} {steps : List Step}
    {answer : Except Refusal α} {refusal : Refusal} (h : Concludes value steps answer)
    (hsome : steps.findSome? Step.refusal? = some refusal) : answer = .error refusal := by
  cases h with
  | refused hfirst =>
      rw [hsome] at hfirst
      cases hfirst
      rfl
  | accepted hnone _ => simp [hsome] at hnone

theorem Concludes.of_none {value : List Outcome → α → Prop} {steps : List Step}
    {answer : Except Refusal α} (h : Concludes value steps answer)
    (hnone : steps.findSome? Step.refusal? = none) :
    ∃ a, answer = .ok a ∧ value (steps.map Step.outcome) a := by
  cases h with
  | refused hfirst => simp [hnone] at hfirst
  | accepted _ hvalue => exact ⟨_, rfl, hvalue⟩

/-- The call carries out the operations up to the first that is refused. -/
def StopsAtRefusal (impl : Implementation σ) (operations : List Operation)
    (value : List Outcome → α → Prop) (call : Call σ Refusal α) : Prop :=
  ∀ handle, ∃ answer,
    let carried := impl.run (impl.carriedOut operations handle) handle
    call handle = ⟨answer, carried.handle, carried.events⟩ ∧
      Concludes value (impl.run operations handle).answer answer

section

variable {operation : Operation} {rest : List Operation} {handle left : σ}
  {events : List Event}

theorem carriedOut_of_refused {refusal : Refusal}
    (h : impl.perform operation handle = ⟨.refused refusal, left, events⟩) :
    impl.carriedOut (operation :: rest) handle = [operation] := by
  simp [carriedOut, run_cons, List.findIdx_cons, h, Outcome.isRefused]

theorem carriedOut_of_accepted {outcome : Outcome}
    (h : impl.perform operation handle = ⟨outcome, left, events⟩)
    (haccepted : outcome.isRefused = false) :
    impl.carriedOut (operation :: rest) handle =
      operation :: impl.carriedOut rest left := by
  simp [carriedOut, run_cons, List.findIdx_cons, h, haccepted]

theorem carriedOut_of_no_refusal
    (h : (impl.run rest handle).answer.findSome? Step.refusal? = none) :
    impl.carriedOut rest handle = rest := by
  have hnone : ((impl.run rest handle).answer.findIdx fun step => step.outcome.isRefused) =
      (impl.run rest handle).answer.length := by
    rw [List.findIdx_eq_length]
    intro step hstep
    exact Step.refusal?_eq_none_iff.1 (List.findSome?_eq_none_iff.1 h step hstep)
  rw [carriedOut, hnone, length_run]
  exact List.take_of_length_le (Nat.le_succ _)

theorem stopsAtRefusal_pure (a : α) :
    impl.StopsAtRefusal [] (fun outcomes b => outcomes = [] ∧ b = a) (pure a) :=
  fun _ => ⟨.ok a, rfl, .accepted rfl ⟨rfl, rfl⟩⟩

/-- One more operation in front: if it is refused that is all, and else the rest goes on
from the handle that it leaves. -/
theorem Performs.stopsAtRefusal {call : Call σ Refusal α} {shown : α → Outcome}
    {value : α → List Outcome → β → Prop} {next : α → Call σ Refusal β}
    (hcall : impl.Performs operation call shown)
    (hnext : ∀ a, impl.StopsAtRefusal rest (value a) (next a)) :
    impl.StopsAtRefusal (operation :: rest)
      (fun outcomes b => ∃ a later, outcomes = shown a :: later ∧ value a later b)
      (call >>= next) := by
  intro handle
  have hperform := hcall.perform_eq handle
  cases hreply : call handle with
  | mk answer left events =>
      rw [hreply] at hperform
      cases answer with
      | error refusal =>
          have hrefused : impl.perform operation handle = ⟨.refused refusal, left, events⟩ :=
            hperform
          -- The run goes on, but this refusal is the first of its steps' refusals.
          refine ⟨.error refusal, ?_, .refused ?_⟩
          · simp [Call.bind_of_error hreply, carriedOut_of_refused hrefused, run_cons, hrefused]
          · simp [run_cons, hrefused, List.findSome?_cons, Step.refusal?]
      | ok a =>
          have haccepted : impl.perform operation handle = ⟨shown a, left, events⟩ := hperform
          have hnone : Step.refusal? ⟨operation, shown a⟩ = none :=
            Step.refusal?_eq_none_iff.2 (hcall.accepted a)
          obtain ⟨answer, hrest, hconcludes⟩ := hnext a left
          refine ⟨answer, ?_, ?_⟩
          · simp [Call.bind_of_ok hreply, hrest,
              carriedOut_of_accepted haccepted (hcall.accepted a), run_cons, haccepted]
          · rw [run_cons, haccepted]
            cases hconcludes with
            | refused hfirst => exact .refused (by simpa [hnone] using hfirst)
            | accepted hnone' hvalue =>
                exact .accepted (by simpa [hnone] using hnone') ⟨a, _, rfl, hvalue⟩

end

theorem StopsAtRefusal.mono {operations : List Operation} {value value' : List Outcome → α → Prop}
    {call : Call σ Refusal α} (h : impl.StopsAtRefusal operations value call)
    (himp : ∀ outcomes a, value outcomes a → value' outcomes a) :
    impl.StopsAtRefusal operations value' call := by
  intro handle
  obtain ⟨answer, hcall, hconcludes⟩ := h handle
  refine ⟨answer, hcall, ?_⟩
  cases hconcludes with
  | refused hfirst => exact .refused hfirst
  | accepted hnone hvalue => exact .accepted hnone (himp _ _ hvalue)

/-! ## The round trip -/

/-- The operations of the straight way through a lifecycle. -/
def straightWay : List Operation := [.open, .read, .getData, .close]

theorem ofAnswer_done : Outcome.ofAnswer (fun _ => .done) = Outcome.ofDone := by
  funext answer
  cases answer <;> rfl

theorem ofAnswer_data : Outcome.ofAnswer .data = Outcome.ofData := by
  funext answer
  cases answer <;> rfl

theorem Plain.performs_open (hplain : impl.Plain) :
    impl.Performs .open impl.open fun _ => .done :=
  ⟨fun _ => by rw [hplain, ofAnswer_done]; rfl, fun _ => rfl⟩

theorem Plain.performs_read (hplain : impl.Plain) : impl.Performs .read impl.read .data :=
  ⟨fun _ => by rw [hplain, ofAnswer_data]; rfl, fun _ => rfl⟩

theorem Plain.performs_getData (hplain : impl.Plain) :
    impl.Performs .getData impl.getData .data :=
  ⟨fun _ => by rw [hplain, ofAnswer_data]; rfl, fun _ => rfl⟩

theorem Plain.performs_close (hplain : impl.Plain) :
    impl.Performs .close impl.close fun _ => .done :=
  ⟨fun _ => by rw [hplain, ofAnswer_done]; rfl, fun _ => rfl⟩

theorem Plain.stopsAtRefusal_roundTrip (hplain : impl.Plain) :
    impl.StopsAtRefusal straightWay
      (fun outcomes payload => ∃ data, outcomes = [.done, .data data, .data payload, .done])
      impl.roundTrip := by
  have hcall := hplain.performs_open.stopsAtRefusal fun _ =>
    hplain.performs_read.stopsAtRefusal fun _ =>
      hplain.performs_getData.stopsAtRefusal fun data =>
        hplain.performs_close.stopsAtRefusal fun _ => stopsAtRefusal_pure data
  apply hcall.mono
  rintro outcomes payload ⟨_, _, rfl, data, _, rfl, _, _, rfl, _, _, rfl, rfl, rfl⟩
  exact ⟨data, rfl⟩

/-- What the round trip does to a fresh handle, and what its answer is read off. -/
theorem Plain.roundTripLife_eq (hplain : impl.Plain) :
    let carried := impl.carriedOut straightWay impl.create
    impl.roundTripLife.handle = impl.reached carried ∧
      impl.roundTripLife.events =
        (impl.run carried impl.create).events ++ impl.release (impl.reached carried) ∧
      Concludes
        (fun outcomes payload => ∃ data, outcomes = [.done, .data data, .data payload, .done])
        (impl.runLife straightWay).answer impl.roundTripLife.answer := by
  obtain ⟨answer, hcall, hconcludes⟩ := hplain.stopsAtRefusal_roundTrip impl.create
  simp only [roundTripLife, live, hcall]
  exact ⟨rfl, rfl, hconcludes⟩

theorem Plain.roundTripLife_of_some (hplain : impl.Plain) {refusal : Refusal}
    (h : (impl.runLife straightWay).answer.findSome? Step.refusal? = some refusal) :
    impl.roundTripLife.answer = .error refusal :=
  hplain.roundTripLife_eq.2.2.of_some h

/-- Without a refusal the steps are these, and the answer is what the third of them hands
over. -/
theorem Plain.roundTripLife_of_none (hplain : impl.Plain)
    (h : (impl.runLife straightWay).answer.findSome? Step.refusal? = none) :
    ∃ data payload, impl.roundTripLife.answer = .ok payload ∧
      (impl.runLife straightWay).answer =
        [⟨.open, .done⟩, ⟨.read, .data data⟩, ⟨.getData, .data payload⟩, ⟨.close, .done⟩] := by
  obtain ⟨payload, hanswer, data, houtcomes⟩ := hplain.roundTripLife_eq.2.2.of_none h
  refine ⟨data, payload, hanswer, ?_⟩
  have hsteps : (impl.runLife straightWay).answer =
      [⟨.open, impl.outcomeAfter [] .open⟩, ⟨.read, impl.outcomeAfter [.open] .read⟩,
        ⟨.getData, impl.outcomeAfter [.open, .read] .getData⟩,
        ⟨.close, impl.outcomeAfter [.open, .read, .getData] .close⟩] := rfl
  rw [hsteps] at houtcomes ⊢
  simpa using houtcomes

/-! ## What the handle is asked for -/

theorem answer_runLife_recorded (impl : Implementation σ) (operations : List Operation) :
    (impl.recorded.runLife operations).answer = (impl.runLife operations).answer := by
  rw [runLife, answer_live, run_recorded]
  rfl

theorem Plain.answer_roundTripLife_recorded (hplain : impl.Plain) :
    impl.recorded.roundTripLife.answer = impl.roundTripLife.answer := by
  -- The steps of the run decide the answer, and they are not changed by the recording.
  have hsame := impl.answer_runLife_recorded straightWay
  cases hfirst : (impl.runLife straightWay).answer.findSome? Step.refusal? with
  | some refusal =>
      rw [hplain.roundTripLife_of_some hfirst,
        hplain.recorded.roundTripLife_of_some (hsame ▸ hfirst)]
  | none =>
      obtain ⟨data, payload, hanswer, hsteps⟩ := hplain.roundTripLife_of_none hfirst
      obtain ⟨data', payload', hanswer', hsteps'⟩ :=
        hplain.recorded.roundTripLife_of_none (hsame ▸ hfirst)
      rw [hsame, hsteps] at hsteps'
      cases hsteps'
      rw [hanswer, hanswer']

theorem Plain.asked_roundTripLife (hplain : impl.Plain) :
    impl.recorded.roundTripLife.handle.asked = impl.carriedOut straightWay impl.create := by
  have hcarried : impl.recorded.carriedOut straightWay impl.recorded.create =
      impl.carriedOut straightWay impl.create := by
    rw [carriedOut, run_recorded]
    rfl
  rw [hplain.recorded.roundTripLife_eq.1, hcarried, Contract.asked_reached]

/-! ## The full lifecycle -/

theorem Plain.test_fullLifecycle_eq_ok_iff (hplain : impl.Plain) :
    (Contract.fullLifecycle.test impl).answer = .ok () ↔
      impl.roundTripLife.answer = .ok .sentinel ∧
        (impl.runLife straightWay).answer[1]? = some ⟨.read, .data .sentinel⟩ := by
  have hlaw : (Contract.fullLifecycle.test impl).answer = .ok () ↔
      (impl.runLife straightWay).answer =
        [⟨.open, .done⟩, ⟨.read, .data .sentinel⟩, ⟨.getData, .data .sentinel⟩,
          ⟨.close, .done⟩] :=
    Contract.test_eq_ok_iff_answer_eq (by decide) hplain
  rw [hlaw]
  constructor
  · intro hlawful
    have hnone : (impl.runLife straightWay).answer.findSome? Step.refusal? = none := by
      rw [hlawful]
      rfl
    obtain ⟨data, payload, hanswer, hsteps⟩ := hplain.roundTripLife_of_none hnone
    rw [hlawful] at hsteps ⊢
    cases hsteps
    exact ⟨hanswer, rfl⟩
  · rintro ⟨hanswer, hread⟩
    cases hfirst : (impl.runLife straightWay).answer.findSome? Step.refusal? with
    | some refusal =>
        rw [hplain.roundTripLife_of_some hfirst] at hanswer
        cases hanswer
    | none =>
        obtain ⟨data, payload, hanswer', hsteps⟩ := hplain.roundTripLife_of_none hfirst
        rw [hanswer] at hanswer'
        rw [hsteps] at hread ⊢
        cases hanswer'
        cases hread
        rfl

/--
The three drivers of the straight way agree on every plain handle.  The round trip answers with
the first refusal of the run, or else with the payload that its third step hands over.
It carries out the operations up to that refusal and no others; what it raises is what
they raise, and then the release, which a tracked handle tells with the state that they
led to, behind a script too.  And the full lifecycle is passed exactly if the round trip
brings back the sentinel and the read has handed it over.
-/
theorem straight_drivers_agree :
    (∀ (σ : Type) (impl : Implementation σ), impl.Plain →
      let steps := (impl.runLife straightWay).answer
      let carried := impl.carriedOut straightWay impl.create
      let trip := impl.roundTripLife
      (∀ refusal, steps.findSome? Step.refusal? = some refusal →
        trip.answer = .error refusal) ∧
      (steps.findSome? Step.refusal? = none → carried = straightWay ∧
        ∃ payload, steps[2]? = some ⟨.getData, .data payload⟩ ∧ trip.answer = .ok payload) ∧
      impl.recorded.roundTripLife.answer = trip.answer ∧
      impl.recorded.roundTripLife.handle.asked = carried ∧
      trip.events = (impl.run carried impl.create).events ++
        impl.release (impl.reached carried) ∧
      ((Contract.fullLifecycle.test impl).answer = .ok () ↔
        trip.answer = .ok .sentinel ∧ steps[1]? = some ⟨.read, .data .sentinel⟩)) ∧
    tracked.roundTripLife.events =
      (tracked.run (tracked.carriedOut straightWay .new) .new).events ++
        [.released (tracked.reached (tracked.carriedOut straightWay .new)).state] ∧
    ∀ script : Script,
      let impl := tracked.scripted script
      let carried := impl.carriedOut straightWay impl.create
      impl.roundTripLife.events = (impl.run carried impl.create).events ++
        [.released (impl.reached carried).base.state] := by
  refine ⟨?_, plain_tracked.roundTripLife_eq.2.1, fun script =>
    (tracked.plain_scripted script).roundTripLife_eq.2.1⟩
  intro σ impl hplain steps carried trip
  refine ⟨fun refusal hfirst => hplain.roundTripLife_of_some hfirst, ?_,
    hplain.answer_roundTripLife_recorded, hplain.asked_roundTripLife,
    hplain.roundTripLife_eq.2.1, hplain.test_fullLifecycle_eq_ok_iff⟩
  intro hnone
  obtain ⟨data, payload, hanswer, hsteps⟩ := hplain.roundTripLife_of_none hnone
  refine ⟨carriedOut_of_no_refusal hnone, payload, ?_, hanswer⟩
  rw [show steps = _ from hsteps]
  rfl

/-- A query that is refused although the handle underneath answers it ends the round trip,
and the close after it is not asked for.  Without a script there is no refusal. -/
theorem straight_drivers_agree_of_refused_query :
    let refusal : Refusal := .notPermitted .open .readable
    let impl := tracked.scripted ⟨[⟨2, true, .refused refusal⟩], none⟩
    impl.Plain ∧ (impl.runLife straightWay).answer.findSome? Step.refusal? = some refusal ∧
      impl.roundTripLife.answer = .error refusal ∧
      impl.recorded.roundTripLife.handle.asked = [.open, .read, .getData] ∧
      impl.roundTripLife.events = [.moved .open .closed .open, .moved .read .open .readable,
        .released .readable] ∧
      tracked.Plain ∧ (tracked.runLife straightWay).answer.findSome? Step.refusal? = none ∧
      ∃ payload, (tracked.runLife straightWay).answer[2]? = some ⟨.getData, .data payload⟩ ∧
        tracked.roundTripLife.answer = .ok payload := by
  intro refusal impl
  have hfirst : (impl.runLife straightWay).answer.findSome? Step.refusal? = some refusal := rfl
  have hnone : (tracked.runLife straightWay).answer.findSome? Step.refusal? = none := rfl
  obtain ⟨hagree, -, hscripted⟩ := straight_drivers_agree
  obtain ⟨hrefused, -, -, hasked, -, -⟩ := hagree _ impl (plain_scripted _ _)
  obtain ⟨-, haccepted, -, -, -, -⟩ := hagree _ tracked plain_tracked
  exact ⟨plain_scripted _ _, hfirst, hrefused refusal hfirst, hasked, hscripted _,
    plain_tracked, hnone, (haccepted hnone).2⟩

end Implementation

end HandleProtocol
