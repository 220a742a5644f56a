import HandleProtocol.Refusal

/-!
What an operation comes to, whichever operation it was.

Opening and closing have nothing to hand over, reading and asking for data hand
over a payload, and each of the four may be refused.
-/

namespace HandleProtocol

inductive Outcome where
  | done
  | data (payload : Payload)
  | refused (refusal : Refusal)
  deriving DecidableEq, Repr

namespace Outcome

def ofDone : Except Refusal Unit → Outcome
  | .ok () => .done
  | .error refusal => .refused refusal

def ofData : Except Refusal Payload → Outcome
  | .ok payload => .data payload
  | .error refusal => .refused refusal

/-- An outcome as the answer of an operation that hands nothing over: a payload
is discarded. -/
def asDone : Outcome → Except Refusal Unit
  | .done => .ok ()
  | .data _ => .ok ()
  | .refused refusal => .error refusal

/-- An outcome as the answer of an operation that hands a payload over: where
there is none, the payload is empty. -/
def asData : Outcome → Except Refusal Payload
  | .done => .ok .empty
  | .data payload => .ok payload
  | .refused refusal => .error refusal

/-- The outcome of an operation that went through and left this payload stored. -/
def success : Operation → Payload → Outcome
  | .open, _ => .done
  | .read, stored => .data stored
  | .getData, stored => .data stored
  | .close, _ => .done

/-- An outcome as far as this operation can deliver it. -/
def through : Operation → Outcome → Outcome
  | .open, outcome => .ofDone outcome.asDone
  | .read, outcome => .ofData outcome.asData
  | .getData, outcome => .ofData outcome.asData
  | .close, outcome => .ofDone outcome.asDone

def isRefused : Outcome → Bool
  | .done => false
  | .data _ => false
  | .refused _ => true

def inspect : Outcome → String
  | .done => "Ok(None)"
  | .data payload => "Ok(Some(" ++ payload.inspect ++ "))"
  | .refused refusal => "Err(" ++ refusal.inspect ++ ")"

def summary : Outcome → String
  | .done => "ok"
  | .data payload => "ok(" ++ payload.text ++ ")"
  | .refused refusal => "error(" ++ refusal.message ++ ")"

@[simp] theorem ofDone_ok (u : Unit) : ofDone (.ok u) = .done := rfl

@[simp] theorem ofDone_error (refusal : Refusal) :
    ofDone (.error refusal) = .refused refusal := rfl

@[simp] theorem ofData_ok (payload : Payload) : ofData (.ok payload) = .data payload := rfl

@[simp] theorem ofData_error (refusal : Refusal) :
    ofData (.error refusal) = .refused refusal := rfl

@[simp] theorem through_refused (operation : Operation) (refusal : Refusal) :
    through operation (.refused refusal) = .refused refusal := by
  cases operation <;> rfl

@[simp] theorem through_success (operation : Operation) (stored : Payload) :
    through operation (success operation stored) = success operation stored := by
  cases operation <;> rfl

@[simp] theorem isRefused_success (operation : Operation) (stored : Payload) :
    (success operation stored).isRefused = false := by
  cases operation <;> rfl

theorem exists_of_isRefused {outcome : Outcome} (h : outcome.isRefused = true) :
    ∃ refusal, outcome = .refused refusal := by
  cases outcome with
  | refused refusal => exact ⟨refusal, rfl⟩
  | _ => cases h

end Outcome

end HandleProtocol
