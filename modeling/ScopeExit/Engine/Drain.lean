import ScopeExit.Engine.Chain
import ScopeExit.Engine.Registry
/-!
Drains: running the actions of a frame, most recent first.

A drain is a machine that its owner steps.  `Drain.advance` either hands out the next action, which
the owner runs, or ends the drain; after an action the owner tells how it ended with `Drain.settle`.
Between two calls the owner may do anything, suspend for instance: the synchronous drain and the
asynchronous one are the same machine, which differ in what the owner does with an action.

An ordinary failure of an action is recorded and the drain goes on.  A breach of a contract and a
fatal failure end the drain at once.  In every case the frame counts as drained afterwards.
-/
namespace ScopeExit

/-- What a drain did, and the exit reason that propagates after it. -/
structure DrainOutcome where
  frame : ScopeFrame
  mode : ActionMode
  pending : ExitReason
  reason : ExitReason
  executed : Nat
  failures : Nat
  chain? : Option FailureChain

/-- The exit reason is no longer the one that was pending. -/
def DrainOutcome.overridden (o : DrainOutcome) : Bool := o.failures > 0

/-- A drain in progress. -/
structure Drain where
  handle : FrameHandle
  /-- The frame as the drain leaves it. -/
  frame : ScopeFrame
  mode : ActionMode
  /-- How many actions were started. -/
  executed : Nat
  aggregator : Aggregator

/-- What the owner of a drain has to do next. -/
inductive DrainStep (β : Type) where
  /-- Run the action and settle the drain with its end. -/
  | run (action : Action β) (drain : Drain)
  /-- Nothing: the drain is over. -/
  | ended (result : Except Failure DrainOutcome)

namespace Drain

variable {β : Type}

/-- Opens a drain.  A synchronous drain is refused if the frame holds asynchronous actions. -/
def start (r : Registry β) (h : FrameHandle) (mode : ActionMode) (pending : ExitReason) :
    Except Failure (Drain × Registry β) := do
  if mode = .sync && (← r.hasAsyncActions h) then throw (.engine .holdsAsync)
  else
    let (f, r) ← r.beginDrain h
    pure (⟨h, { f with draining := false, drained := true }, mode, 0, .start pending⟩, r)

/-- What a drain amounts to when no action is left. -/
def outcome (d : Drain) : DrainOutcome where
  frame := d.frame
  mode := d.mode
  pending := d.aggregator.pending
  reason := d.aggregator.resolve
  executed := d.executed
  failures := d.aggregator.failures
  chain? := d.aggregator.built?

/-- Closes a drain with a result; a frame that is gone is a failure of its own. -/
def close (d : Drain) (r : Registry β) (result : Except Failure DrainOutcome) :
    Except Failure DrainOutcome × Registry β :=
  match r.finishDrain d.handle with
  | .ok r => (result, r)
  | .error failure => (.error failure, r)

/-- Hands out the next action or ends the drain. -/
def advance (d : Drain) (r : Registry β) : DrainStep β × Registry β :=
  match r.popAction d.handle with
  | .ok (some action, r) => (.run action { d with executed := d.executed + 1 }, r)
  | .ok (none, r) =>
    let (result, r) := d.close r (.ok d.outcome)
    (.ended result, r)
  | .error failure =>
    let (result, r) := d.close r (.error failure)
    (.ended result, r)

/-- Takes in how an action ended and goes on, or gives up. -/
def settle (d : Drain) (r : Registry β) (failure? : Option Failure) : DrainStep β × Registry β :=
  match failure? with
  | none => d.advance r
  | some failure =>
    if failure.severity = .ordinary then
      { d with aggregator := d.aggregator.record failure }.advance r
    else
      let (result, r) := d.close r (.error failure)
      (.ended result, r)

end Drain

end ScopeExit
