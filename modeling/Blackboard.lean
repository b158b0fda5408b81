import Blackboard.Json.Reader
import Blackboard.Main
import Blackboard.Script
import Blackboard.Wire.Name
import Blackboard.Wire.Settings
import Blackboard.Wire.Value
import Blackboard.Proofs.Binary64.Whole
import Blackboard.Proofs.Value.Equality
import Blackboard.Proofs.Binary64.Exact
import Blackboard.Proofs.Value.Keys
import Blackboard.Proofs.Store.History
import Blackboard.Proofs.Store.Index
import Blackboard.Proofs.Store.Refinement
import Blackboard.Proofs.Store.Novelty
import Blackboard.Proofs.Query.Meaning
import Blackboard.Proofs.Query.Alignment
import Blackboard.Proofs.Query.Plan
import Blackboard.Proofs.Query.Join
import Blackboard.Proofs.Query.Misses
import Blackboard.Proofs.Query.Completion
import Blackboard.Proofs.Query.Saturation
import Blackboard.Proofs.World.Contribution
import Blackboard.Proofs.Rule.Delivery
import Blackboard.Proofs.Settling.Step
import Blackboard.Proofs.Settling.Recording
import Blackboard.Proofs.Settling.Supply
import Blackboard.Proofs.Settling.Serving
import Blackboard.Proofs.Settling.Sound
import Blackboard.Proofs.Settling.Isolation
import Blackboard.Proofs.Roster.Sync
import Blackboard.Proofs.Scheduler.Reachable
import Blackboard.Proofs.Scheduler.Delay
import Blackboard.Proofs.Scheduler.Admission
import Blackboard.Proofs.Scheduler.Templates
import Blackboard.Proofs.Settling.Termination
import Blackboard.Proofs.Settling.Firing
import Blackboard.Proofs.Scheduler.Firing
import Blackboard.Proofs.Query.Reordering
import Blackboard.Proofs.Query.Commutation
import Blackboard.Proofs.Json.Canonical
import Blackboard.Proofs.Match.Bindings
import Blackboard.Proofs.Wire.RoundTrip
import Blackboard.Proofs.Settling.Reordering
import Blackboard.Proofs.Scheduler.Reordering
import Blackboard.Proofs.Telemetry.Delivery
import Blackboard.Proofs.Roster.Lineup
import Blackboard.Proofs.Scheduler.History
import Blackboard.Proofs.Diagnostics.Entries
import Blackboard.Proofs.Rule.Account
import Blackboard.Proofs.Settling.Failing
import Blackboard.Proofs.Roster.Frame
import Blackboard.Proofs.Scheduler.Failures
import Blackboard.Proofs.Scheduler.Ownership
import Blackboard.Proofs.Scheduler.Opening
import Blackboard.Proofs.Programs.Geometry
import Blackboard.Proofs.Query.Containment
import Blackboard.Proofs.Query.Growth
import Blackboard.Proofs.Scheduler.Difference
import Blackboard.Proofs.Settling.Tally
import Blackboard.Proofs.Scheduler.Tally
import Blackboard.Proofs.Diagnostics.Partition
import Blackboard.Proofs.Query.Access
import Blackboard.Proofs.Settling.Cells
import Blackboard.Proofs.Scheduler.Access
