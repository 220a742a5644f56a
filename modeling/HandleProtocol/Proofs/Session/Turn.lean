import HandleProtocol.Proofs.Tracked.Trace
import HandleProtocol.Session.Command

/-!
# What a request does to a slot

A request keeps the handle of a slot, ends its life, or makes a new one and puts
it in its place.  Which of the three it is can be told from the request and its
answer, and this decides what becomes of the slot and which events there are.
-/

namespace HandleProtocol.Session

def Held.form : Held → Form
  | .typed _ => .typed
  | .tracked _ => .tracked
  | .unchecked _ => .unchecked

@[simp] theorem Held.form_new (form : Form) : (new form).form = form := by
  cases form <;> rfl

inductive Change where
  | keeps
  | ends
  | makes
  deriving DecidableEq, Repr

def Command.change (command : Command) (answer : Answer) : Change :=
  match command, answer with
  | .create _, .outcome .done => .makes
  | .erase, .outcome .done => .makes
  | .release, .outcome .done => .ends
  | _, _ => .keeps

/-- Is the handle that a command makes, if it makes one, a tracked one? -/
def Command.makesTracked : Command → Bool
  | .create form => form = .tracked
  | .erase => true
  | _ => false

def Request.change (request : Request) (answer : Answer) : Change :=
  match request.command? with
  | some command => command.change answer
  | none => .keeps

def Request.makesTracked (request : Request) : Bool :=
  match request.command? with
  | some command => command.makesTracked
  | none => false

/-! ## Keeping a handle -/

structure Kept (slot : Option Held) (response : Response) : Prop where
  form_eq : response.slot.map Held.form = slot.map Held.form
  not_released : ∀ event ∈ response.events, event.isReleased = false
  silent : slot.map Held.form ≠ some .tracked → response.events = []

theorem kept_of_no_events {slot : Option Held} {response : Response}
    (hform : response.slot.map Held.form = slot.map Held.form)
    (hevents : response.events = []) : Kept slot response := by
  constructor
  case form_eq => exact hform
  case not_released => simp [hevents]
  case silent => exact fun _ => hevents

theorem kept_fail (answer : Answer) (slot : Option Held) : Kept slot (.fail answer slot) :=
  kept_of_no_events rfl rfl

theorem kept_call (held : Held) (operation : Operation) :
    Kept (some held) (held.call operation) := by
  cases held with
  | typed handle =>
      simp only [Held.call]
      cases handle.call? operation with
      | none => exact kept_fail _ _
      | some called => exact kept_of_no_events rfl rfl
  | tracked handle =>
      exact ⟨rfl, (handle.trace_call operation).not_released, fun h => absurd rfl h⟩
  | unchecked handle =>
      simp only [Held.call, Implementation.perform_unchecked]
      exact kept_of_no_events rfl rfl

theorem kept_perform (held : Held) (operation : Operation) :
    Kept (some held) (held.perform operation) := by
  cases held with
  | typed handle => exact kept_fail _ _
  | tracked handle =>
      simp only [Held.perform, Implementation.perform_tracked]
      exact kept_call (.tracked handle) operation
  | unchecked handle => exact kept_call (.unchecked handle) operation

theorem obey_of_keeps {slot : Option Held} {command : Command}
    (h : command.change (obey slot command).answer = .keeps) :
    Kept slot (obey slot command) := by
  cases slot with
  | none =>
      cases command with
      | create form => cases h
      | _ => exact kept_fail _ _
  | some held =>
      cases command with
      | create form => cases h
      | call operation => exact kept_call held operation
      | perform operation => exact kept_perform held operation
      | erase =>
          cases held with
          | typed handle => cases h
          | _ => exact kept_fail _ _
      | release => cases h
      | peek => exact kept_of_no_events rfl rfl

/-! ## Ending a life and making a handle -/

/-- Only a release ends a life without making another handle. -/
theorem command_of_ends {command : Command} {answer : Answer}
    (h : command.change answer = .ends) : command = .release ∧ answer = .outcome .done := by
  unfold Command.change at h
  split at h <;> simp_all

theorem command_of_makes {command : Command} {answer : Answer}
    (h : command.change answer = .makes) :
    ((∃ form, command = .create form) ∨ command = .erase) ∧ answer = .outcome .done := by
  unfold Command.change at h
  split at h <;> simp_all

theorem obey_of_ends {slot : Option Held} {command : Command}
    (h : command.change (obey slot command).answer = .ends) :
    obey slot command = .done none (endSlot slot) := by
  obtain ⟨rfl, hdone⟩ := command_of_ends h
  cases slot with
  | none => cases hdone
  | some held => rfl

theorem obey_of_makes {slot : Option Held} {command : Command}
    (h : command.change (obey slot command).answer = .makes) :
    ∃ held, obey slot command = .done (some held) (endSlot slot) ∧
      (held.form = .tracked ↔ command.makesTracked = true) := by
  obtain ⟨⟨form, rfl⟩ | rfl, hdone⟩ := command_of_makes h
  · refine ⟨.new form, ?_, ?_⟩
    · cases slot <;> rfl
    · simp [Command.makesTracked]
  · cases slot with
    | none => cases hdone
    | some held =>
        cases held with
        | typed handle =>
            -- A typed handle raises nothing at its end, and an erasure raises nothing.
            exact ⟨.tracked handle.handle.erase, rfl, by simp [Held.form, Command.makesTracked]⟩
        | _ => cases hdone

/-! ## Requests -/

theorem respond_of_none {request : Request} (h : request.command? = none)
    (slot : Option Held) :
    request.respond slot = .fail .malformed slot ∧
      (∀ answer, request.change answer = .keeps) ∧ request.makesTracked = false := by
  simp [Request.respond, Request.change, Request.makesTracked, h]

theorem respond_of_some {request : Request} {command : Command}
    (h : request.command? = some command) (slot : Option Held) :
    request.respond slot = obey slot command ∧
      (∀ answer, request.change answer = command.change answer) ∧
      request.makesTracked = command.makesTracked := by
  simp [Request.respond, Request.change, Request.makesTracked, h]

theorem respond_of_keeps {slot : Option Held} {request : Request}
    (h : request.change (request.respond slot).answer = .keeps) :
    Kept slot (request.respond slot) := by
  cases hcommand : request.command? with
  | none =>
      rw [(respond_of_none hcommand slot).1]
      exact kept_fail _ _
  | some command =>
      obtain ⟨hrespond, hchange, -⟩ := respond_of_some hcommand slot
      rw [hrespond, hchange] at h
      rw [hrespond]
      exact obey_of_keeps h

theorem respond_of_ends {slot : Option Held} {request : Request}
    (h : request.change (request.respond slot).answer = .ends) :
    request.respond slot = .done none (endSlot slot) := by
  cases hcommand : request.command? with
  | none =>
      rw [(respond_of_none hcommand slot).2.1] at h
      cases h
  | some command =>
      obtain ⟨hrespond, hchange, -⟩ := respond_of_some hcommand slot
      rw [hrespond, hchange] at h
      rw [hrespond]
      exact obey_of_ends h

theorem respond_of_makes {slot : Option Held} {request : Request}
    (h : request.change (request.respond slot).answer = .makes) :
    ∃ held, request.respond slot = .done (some held) (endSlot slot) ∧
      (held.form = .tracked ↔ request.makesTracked = true) := by
  cases hcommand : request.command? with
  | none =>
      rw [(respond_of_none hcommand slot).2.1] at h
      cases h
  | some command =>
      obtain ⟨hrespond, hchange, htracked⟩ := respond_of_some hcommand slot
      rw [hrespond, hchange] at h
      rw [hrespond, htracked]
      exact obey_of_makes h

theorem change_of_makesTracked {request : Request} (htracked : request.makesTracked = true) :
    request.change (.outcome .done) = .makes := by
  cases hcommand : request.command? with
  | none =>
      rw [(respond_of_none hcommand none).2.2] at htracked
      cases htracked
  | some command =>
      obtain ⟨-, hchange, hmakes⟩ := respond_of_some hcommand none
      rw [hmakes] at htracked
      rw [hchange]
      cases command with
      | create form => rfl
      | erase => rfl
      | _ => cases htracked

end HandleProtocol.Session
