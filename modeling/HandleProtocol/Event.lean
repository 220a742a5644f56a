import HandleProtocol.Refusal

/-!
The events of a tracked handle's life, in the order in which they happen.
-/

namespace HandleProtocol

inductive Event where
  | moved (operation : Operation) (source target : State)
  | rejected (operation : Operation) (state : State) (refusal : Refusal)
  | released (state : State)
  deriving DecidableEq, Repr

namespace Event

def isReleased : Event → Bool
  | .moved _ _ _ => false
  | .rejected _ _ _ => false
  | .released _ => true

end Event

end HandleProtocol
