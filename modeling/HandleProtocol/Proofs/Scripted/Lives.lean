import HandleProtocol.Proofs.Driven
import HandleProtocol.Proofs.Scripted.Run
import HandleProtocol.Proofs.Tracked.Log

/-!
# Every life ends once

A script can make a driver stop anywhere, and can show it one thing while the tracked
handle underneath does another.  The events of that handle hang together all the same,
and they end with its release, since they are those of its own life on the operations
that got through.
-/

namespace HandleProtocol

namespace Script

variable {ε α : Type}

theorem coherent_runLife (script : Script) (operations : List Operation) :
    Coherent ((Implementation.tracked.scripted script).runLife operations).events := by
  rw [Implementation.plain_tracked.events_runLife_scripted]
  exact Tracked.coherent_runLife _

theorem coherent_live (script : Script) {use : Call (Scripted Tracked) ε α}
    (h : (Implementation.tracked.scripted script).Operates use) :
    Coherent ((Implementation.tracked.scripted script).live use).events := by
  obtain ⟨operations, hevents⟩ := h.events_live
  rw [hevents]
  exact script.coherent_runLife operations

/--
Whatever a script makes a driver see, the tracked handle underneath is released once
and at the end, in the state that its last move led to; its moves are linked from the
closed state on, and each rejection tells the state in force.  This holds of a run of
any operations, of the round trip and of every contract, wherever they stop.
-/
theorem driven_lives_end_once (script : Script) :
    let impl := Implementation.tracked.scripted script
    (∀ operations : List Operation, Coherent (impl.runLife operations).events) ∧
      Coherent impl.roundTripLife.events ∧
      ∀ contract : Contract, Coherent (contract.test impl).events := by
  intro impl
  refine ⟨script.coherent_runLife, ?_, ?_⟩
  · exact script.coherent_live (Implementation.plain_scripted _ script).operates_roundTrip
  · intro contract
    exact script.coherent_live ((Implementation.plain_scripted _ script).operates_hold contract)

end Script

end HandleProtocol
