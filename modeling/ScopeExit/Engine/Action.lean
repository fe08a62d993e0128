import ScopeExit.ExitReason
/-!
Deferred actions and the frames that own them.
-/
namespace ScopeExit

/-- What a deferred action is made of. -/
inductive ActionKind where
  | statement | block
  deriving DecidableEq, Inhabited

/-- The name of a kind of action. -/
def ActionKind.name : ActionKind → String
  | .statement => "statement"
  | .block => "block"

/-- How an action, or a drain, runs. -/
inductive ActionMode where
  | sync | async
  deriving DecidableEq, Inhabited

/-- The name of a mode. -/
def ActionMode.name : ActionMode → String
  | .sync => "sync"
  | .async => "async"

/-- One registered unit of work.  The engine hands out the body and never looks into it. -/
structure Action (β : Type) where
  body : β
  kind : ActionKind := .statement
  mode : ActionMode := .sync
  span : Span := .unknown
  /-- The transfers that the body would make out of the action. -/
  transfers : List Transfer := []

/-- An action in one line. -/
def Action.describe {β : Type} (a : Action β) : Text :=
  Text.concat [a.mode.name, " ", a.kind.name, " action",
    if a.span.isUnknown then "" else " at " ++ a.span.render]

/-- The caller's reference to one activation of a frame.  Callers may make up handles, and a negative
depth counts from the innermost frame. -/
structure FrameHandle where
  frame : Int
  depth : Int
  deriving DecidableEq

/-- One activation of a frame. -/
structure ScopeFrame where
  id : Nat
  kind : FrameKind
  isAsync : Bool
  /-- The number of actions in the arena when the frame was entered. -/
  mark : Nat
  /-- The frame around it. -/
  parent : Option Nat
  span : Span
  /-- How many asynchronous actions were registered. -/
  asyncActions : Nat := 0
  /-- How many actions were registered. -/
  registered : Nat := 0
  drained : Bool := false
  draining : Bool := false
  deriving DecidableEq, Inhabited

end ScopeExit
