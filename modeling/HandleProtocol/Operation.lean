import HandleProtocol.Payload

/-!
The four operations on a handle, and what each does to the stored payload once
it goes through.
-/

namespace HandleProtocol

inductive Operation where
  | «open»
  | read
  | getData
  | close
  deriving DecidableEq, Repr

namespace Operation

def all : List Operation := [.open, .read, .getData, .close]

def name : Operation → String
  | .open => "open"
  | .read => "read"
  | .getData => "get data"
  | .close => "close"

def inspect : Operation → String
  | .open => "Open"
  | .read => "Read"
  | .getData => "GetData"
  | .close => "Close"

def ofName? (name : String) : Option Operation :=
  all.find? fun operation => operation.name = name

/--
The payload stored after an operation has gone through: a read fetches the
sentinel, a close clears, and the other two leave the payload as it was.
-/
def store : Operation → Payload → Payload
  | .open, stored => stored
  | .read, _ => .sentinel
  | .getData, stored => stored
  | .close, _ => .empty

@[simp] theorem mem_all (operation : Operation) : operation ∈ all := by
  cases operation <;> simp [all]

@[simp] theorem ofName?_name (operation : Operation) :
    ofName? operation.name = some operation := by
  cases operation <;> rfl

end Operation

end HandleProtocol
