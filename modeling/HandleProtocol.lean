import HandleProtocol.Contract
import HandleProtocol.Difference
import HandleProtocol.Handle.Scripted
import HandleProtocol.Handle.Unchecked
import HandleProtocol.Main
import HandleProtocol.Proofs.Contract.Agreement
import HandleProtocol.Proofs.Contract.Checks
import HandleProtocol.Proofs.Contract.Coverage
import HandleProtocol.Proofs.Difference.Basic
import HandleProtocol.Proofs.Difference.Unchecked
import HandleProtocol.Proofs.Recorded
import HandleProtocol.Proofs.Reference
import HandleProtocol.Proofs.Run
import HandleProtocol.Proofs.Scripted.Faults
import HandleProtocol.Proofs.Scripted.Run
import HandleProtocol.Proofs.Session.Chronicle
import HandleProtocol.Proofs.Session.Names
import HandleProtocol.Proofs.Session.Release
import HandleProtocol.Proofs.Session.Slot
import HandleProtocol.Proofs.Session.Turn
import HandleProtocol.Proofs.Tracked.Log
import HandleProtocol.Proofs.Tracked.Records
import HandleProtocol.Proofs.Tracked.Refinement
import HandleProtocol.Proofs.Tracked.Trace
import HandleProtocol.Proofs.Typed.Reachable
import HandleProtocol.Proofs.Typed.Switch
import HandleProtocol.RoundTrip
import HandleProtocol.Sampling
import HandleProtocol.Session.Run
import HandleProtocol.Proofs.Tracked.Accepted
import HandleProtocol.Proofs.Tracked.Language
import HandleProtocol.Proofs.Replies
import HandleProtocol.Proofs.Tracked.Idle
import HandleProtocol.Proofs.Difference.Append
import HandleProtocol.Proofs.Difference.Reset
import HandleProtocol.Proofs.Sampling.Draws
import HandleProtocol.Proofs.Sampling.Sequences
import HandleProtocol.Proofs.Driven
import HandleProtocol.Proofs.Scripted.Lives
import HandleProtocol.Proofs.Difference.Exact
import HandleProtocol.Proofs.Session.Separate
import HandleProtocol.Proofs.Contract.Clearing
import HandleProtocol.Proofs.RoundTrip
import HandleProtocol.Proofs.Text.Outcome
import HandleProtocol.Proofs.Contract.Failure
import HandleProtocol.Proofs.Difference.Text
import HandleProtocol.Proofs.Contract.Report
