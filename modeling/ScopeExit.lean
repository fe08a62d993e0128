import ScopeExit.DeferScope
import ScopeExit.Engine.Dispatch
import ScopeExit.Main
import ScopeExit.Pipeline
import ScopeExit.Report
import ScopeExit.Scenario.Run
import ScopeExit.Script.Run
import ScopeExit.Source.Lowering
import ScopeExit.Tree.Listing
import ScopeExit.Tree.Placement
import ScopeExit.Value.Description
import ScopeExit.Value.Operator
import ScopeExit.Proofs.Engine.Registry
import ScopeExit.Proofs.Engine.Drain
import ScopeExit.Proofs.Engine.Failure
import ScopeExit.Proofs.Engine.History
import ScopeExit.Proofs.Engine.Abort
import ScopeExit.Proofs.Engine.Refusal
import ScopeExit.Proofs.Engine.Scope
import ScopeExit.Proofs.Engine.Nesting
import ScopeExit.Proofs.Engine.Suspension
import ScopeExit.Proofs.Script.Code
import ScopeExit.Proofs.Loop
import ScopeExit.Proofs.Script.Hosting
import ScopeExit.Proofs.Script.Effect
import ScopeExit.Proofs.Script.Invariant
import ScopeExit.Proofs.Script.Draining
import ScopeExit.Proofs.Script.Moving
import ScopeExit.Proofs.Script.Call
import ScopeExit.Proofs.Script.Statement
import ScopeExit.Proofs.Script.Expression
import ScopeExit.Proofs.Script.Suspension
import ScopeExit.Proofs.Script.Outcome
import ScopeExit.Proofs.Script.Run
import ScopeExit.Proofs.Script.Soundness
import ScopeExit.Proofs.Script.Discipline
import ScopeExit.Proofs.Script.Frames
import ScopeExit.Proofs.Script.Resumption
import ScopeExit.Proofs.Script.Containment
import ScopeExit.Proofs.Scenario.Scope
import ScopeExit.Proofs.Script.Growing
import ScopeExit.Proofs.Script.Following
import ScopeExit.Proofs.Script.Depth
import ScopeExit.Proofs.Engine.Relaxed
import ScopeExit.Proofs.Script.Recast
import ScopeExit.Proofs.Script.Relaxing
import ScopeExit.Proofs.Loop.Waking
import ScopeExit.Proofs.Script.Rejection
import ScopeExit.Proofs.Script.Lifetime
import ScopeExit.Proofs.Script.Attempts
import ScopeExit.Proofs.Script.Journeys
import ScopeExit.Proofs.Tree.Acceptance
import ScopeExit.Proofs.Script.Limits
import ScopeExit.Proofs.Script.Chronicle
import ScopeExit.Proofs.Value.Representation
import ScopeExit.Proofs.Script.Addressing
import ScopeExit.Proofs.Script.Constants
import ScopeExit.Proofs.Source.Lowering
import ScopeExit.Proofs.Value.Word
import ScopeExit.Proofs.Value.Equality
import ScopeExit.Proofs.Source.Location
import ScopeExit.Proofs.Source.Listing
import ScopeExit.Proofs.Source.Expression
import ScopeExit.Proofs.Source.Transparency
