import HandleProtocol.Implementation

/-!
The straight way through a lifecycle: open, read, ask for the data, close.
-/

namespace HandleProtocol.Implementation

variable {σ : Type}

def roundTrip (impl : Implementation σ) : Call σ Refusal Payload := do
  impl.open
  let _ ← impl.read
  let data ← impl.getData
  impl.close
  return data

def roundTripLife (impl : Implementation σ) : Reply σ (Except Refusal Payload) :=
  impl.live impl.roundTrip

end HandleProtocol.Implementation
