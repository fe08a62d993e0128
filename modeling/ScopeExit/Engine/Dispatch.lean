import ScopeExit.Engine.Drain
/-!
Dispatching an exit: a frame is drained once, left, and its exit reason replaced by the outcome.

The frame is left whatever the drain does; if it cannot be left, that is the failure.  A drain that
ran at least one action and came to its end leaves a record.
-/
namespace ScopeExit

/-- One drain in the ledger of a run. -/
structure DrainRecord where
  /-- The name of the activation. -/
  activation : Text
  frame : Nat
  kind : FrameKind
  mode : ActionMode
  pending : ExitKind
  outcome : ExitKind
  executed : Nat
  failures : Nat
  deriving DecidableEq

/-- The exit reason was replaced. -/
def DrainRecord.overridden (r : DrainRecord) : Bool := r.failures > 0

/-- What a dispatch came to. -/
structure Dispatched (β : Type) where
  /-- The exit reason that propagates, or the failure of the dispatch itself. -/
  result : Except Failure ExitReason
  /-- The record of the drain, if it leaves one. -/
  record? : Option DrainRecord
  registry : Registry β

namespace Registry

variable {β : Type}

/-- The record of a finished drain. -/
def recordOf? (r : Registry β) (o : DrainOutcome) : Option DrainRecord :=
  if o.executed = 0 then none
  else
    some { activation := r.name, frame := o.frame.id, kind := o.frame.kind, mode := o.mode,
           pending := o.pending.kind, outcome := o.reason.kind, executed := o.executed,
           failures := o.failures }

/-- Leaves a frame after its drain. -/
def leave (r : Registry β) (h : FrameHandle) (result : Except Failure DrainOutcome) :
    Dispatched β :=
  match r.exit h with
  | .error failure => ⟨.error failure, none, r⟩
  | .ok r =>
    match result with
    | .error failure => ⟨.error failure, none, r⟩
    | .ok o => ⟨.ok o.reason, r.recordOf? o, r⟩

end Registry

end ScopeExit
