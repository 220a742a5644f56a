/-!
The three stages of a handle's life.
-/

namespace HandleProtocol

inductive State where
  | closed
  | «open»
  | readable
  deriving DecidableEq, Repr

namespace State

/-- Every handle begins closed, and is closed again after a close. -/
def initial : State := .closed

def all : List State := [.closed, .open, .readable]

def name : State → String
  | .closed => "closed"
  | .open => "open"
  | .readable => "readable"

def inspect : State → String
  | .closed => "Closed"
  | .open => "Open"
  | .readable => "Readable"

def ofName? (name : String) : Option State :=
  all.find? fun state => state.name = name

@[simp] theorem mem_all (state : State) : state ∈ all := by
  cases state <;> simp [all]

@[simp] theorem ofName?_name (state : State) : ofName? state.name = some state := by
  cases state <;> rfl

theorem open_ne_closed : State.open ≠ .closed := by decide

theorem readable_ne_closed : readable ≠ .closed := by decide

end State

end HandleProtocol
