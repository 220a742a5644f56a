import HandleProtocol.Session.Command
import HandleProtocol.Session.Register

/-!
Sessions: requests over handles that are kept under names.

Requests are answered in order.  The handles that are left at the end are given
up in the order of their names.
-/

namespace HandleProtocol.Session

abbrev Store := Register Held

structure Entry where
  answer : Answer
  view : Option View
  events : List Event
  deriving DecidableEq, Repr

/-- Answer one request; one without a name is about no handle at all. -/
def step (store : Store) (request : Request) : Entry × Store :=
  match request.name with
  | none => (⟨.malformed, none, []⟩, store)
  | some name =>
      let response := request.respond (store.get? name)
      (⟨response.answer, response.slot.map Held.view, response.events⟩,
        store.put name response.slot)

def run (store : Store) : List Request → List Entry × Store
  | [] => ([], store)
  | request :: rest =>
      let first := step store request
      let later := run first.2 rest
      (first.1 :: later.1, later.2)

def finish (store : Store) : List Event := store.values.flatMap Held.release

structure Transcript where
  entries : List Entry
  ending : List Event
  deriving DecidableEq, Repr

def transcript (requests : List Request) : Transcript :=
  let ran := run .empty requests
  ⟨ran.1, finish ran.2⟩

@[simp] theorem run_nil (store : Store) : run store [] = ([], store) := rfl

theorem run_cons (store : Store) (request : Request) (rest : List Request) :
    run store (request :: rest) =
      ((step store request).1 :: (run (step store request).2 rest).1,
        (run (step store request).2 rest).2) := rfl

end HandleProtocol.Session
