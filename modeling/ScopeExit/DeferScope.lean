import ScopeExit.Engine.Dispatch
/-!
A scope: one frame used as a bracket around code.

Between entering and leaving, callbacks are registered; leaving runs them, most recent first, and lets
the failure of the code propagate unless a callback failed on top of it.  A scope may be entered again
as soon as it was left, even while its callbacks still run.
-/
namespace ScopeExit

/-- How a callback is given to a scope. -/
inductive Registration where
  /-- A call that the leaving scope makes. -/
  | call
  /-- A function that is one block. -/
  | block
  /-- A call whose result is waited for. -/
  | await
  deriving DecidableEq

/-- The kind of the action that a registration makes. -/
def Registration.kind : Registration → ActionKind
  | .block => .block
  | _ => .statement

/-- The mode of the action that a registration makes. -/
def Registration.mode : Registration → ActionMode
  | .await => .async
  | _ => .sync

/-- A scope.  It has a handle while it is active. -/
structure DeferScope (β : Type) where
  kind : FrameKind
  registry : Registry β
  handle? : Option FrameHandle := none

namespace DeferScope

variable {β : Type}

instance : Inhabited (DeferScope β) := ⟨{ kind := .block, registry := default }⟩

/-- A scope that is not active.  A scope without a name is named for its kind. -/
def new (kind : FrameKind) (name : Text) : DeferScope β where
  kind := kind
  registry :=
    { name := if name.isEmpty then Text.concat ["<scope:", kind.name, ">"] else name }

/-- The number of callbacks that are registered. -/
def pending (s : DeferScope β) : Except Failure Int :=
  match s.handle? with
  | none => .ok 0
  | some h => s.registry.pending h

/-- Registers a callback. -/
def register (s : DeferScope β) (how : Registration) (body : β) :
    Except Failure (DeferScope β) :=
  match s.handle? with
  | none => .error (.engine .scopeInactive)
  | some h =>
    (s.registry.register h { body, kind := how.kind, mode := how.mode }).map fun registry =>
      { s with registry }

/-- Enters a scope that is not active. -/
def enter (s : DeferScope β) (isAsync : Bool) : Except Failure (DeferScope β) :=
  match s.handle? with
  | some _ => .error (.engine .scopeActive)
  | none =>
    let (h, registry) := s.registry.enter s.kind isAsync .unknown
    .ok { s with registry, handle? := some h }

/-- A scope that has given up its frame, which is drained next. -/
def detached (s : DeferScope β) : DeferScope β := { s with handle? := none }

end DeferScope

/-- The exit reason of code that a scope brackets.  Closing a generator early leaves the scope like a
return. -/
def ExitReason.ofBody : Option Failure → ExitReason
  | none => .normal
  | some (.single (.closing _)) => .returning .null
  | some failure => .throwing (some failure)

/-- The failure that leaving a scope adds to the outcome of the code in it: the folded failures of the
callbacks, if one failed. -/
def DrainOutcome.raised? (o : DrainOutcome) : Option Failure :=
  if o.overridden then o.reason.error? else none

end ScopeExit
