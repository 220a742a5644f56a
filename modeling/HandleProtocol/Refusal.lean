import HandleProtocol.Operation
import HandleProtocol.State

/-!
Why a handle refuses an operation.

Closing a closed handle has a cause of its own, so that a double close can be
told from the other mistakes of order.
-/

namespace HandleProtocol

inductive Refusal where
  | notPermitted (operation : Operation) (state : State)
  | alreadyClosed
  deriving DecidableEq, Repr

namespace Refusal

def operation : Refusal → Operation
  | .notPermitted operation _ => operation
  | .alreadyClosed => .close

def state : Refusal → State
  | .notPermitted _ state => state
  | .alreadyClosed => .closed

def isDoubleClose : Refusal → Bool
  | .notPermitted _ _ => false
  | .alreadyClosed => true

def message : Refusal → String
  | .notPermitted operation state =>
      operation.name ++ " not permitted while handle is " ++ state.name
  | .alreadyClosed => "handle is already closed"

def inspect : Refusal → String
  | .notPermitted operation state =>
      "InvalidTransition \x7b operation: " ++ operation.inspect ++
        ", state: " ++ state.inspect ++ " \x7d"
  | .alreadyClosed => "AlreadyClosed"

end Refusal

end HandleProtocol
