import ScopeExit.Script.Property
import ScopeExit.Tree.Transfers
/-!
Frames of the engine around running code.

Code that opens a frame runs above `scopeBody`.  However it ends, the frame is drained then: at once if
all actions are synchronous, otherwise by a suspension that asks for the drain.  While a drain is in
progress the action in hand runs above `draining`, and when the drain is over the frame is left and its
exit reason goes on to `scopeEnd`.
-/
namespace ScopeExit.Script

namespace World

/-- A completion as the code below a frame sees it: a failure that propagates is raised again. -/
def complete (w : World) (stack : Stack) : ExitReason → Running
  | .throwing (some failure) => ⟨w, .raise failure, stack⟩
  | .throwing none => ⟨w, .raise (.host .type), stack⟩
  | reason => ⟨w, .complete reason, stack⟩

/-- Enters a frame, binds the functions among its statements and goes on inside. -/
def openFrame (w : World) (stack : Stack) (kind : FrameKind) (span : Span) (scope : Nat)
    (statements : List Node) (atEnd : ExitReason) (inside : World → Stack → Running) : Running :=
  let a := w.scopes.activation scope
  let activation := w.activation a
  let (handle, registry) := activation.registry.enter kind activation.isAsync span
  let w := w.setRegistry a registry
  let w := { w with stats := { w.stats with framesEntered := w.stats.framesEntered + 1 } }
  let stack := .scopeBody a handle atEnd :: stack
  match w.hoist scope statements with
  | (w, none) => inside w stack
  | (w, some failure) => ⟨w, .raise failure, stack⟩

/-- Enters a frame and runs statements in it. -/
def enterFrame (w : World) (stack : Stack) (kind : FrameKind) (span : Span) (scope : Nat)
    (statements : List Node) (atEnd : ExitReason) : Running :=
  w.openFrame stack kind span scope statements atEnd fun w stack =>
    ⟨w, .complete .normal, .statements statements scope :: stack⟩

/-- Leaves a frame after its drain and lets its exit reason go on. -/
def leaveFrame (w : World) (stack : Stack) (a : Nat) (handle : FrameHandle)
    (result : Except Failure DrainOutcome) : Running :=
  let d := (w.registry a).leave handle result
  let w := w.setRegistry a d.registry
  let w := match d.record? with
    | some record => w.report record
    | none => w
  match d.result with
  | .ok reason => ⟨w, .complete reason, stack⟩
  | .error failure => ⟨w, .raise failure, stack⟩

/-- Does what a drain asks for: runs the next action, or leaves the frame. -/
def proceed (w : World) (stack : Stack) (a : Nat) (handle : FrameHandle) :
    DrainStep Deferred × Registry Deferred → Running
  | (.run action drain, registry) =>
    let boundary := if action.mode = .async then Frame.asyncDrive else .syncBoundary
    ⟨w.setRegistry a registry, .execute action.body.body action.body.scope,
      boundary :: .draining a drain :: stack⟩
  | (.ended result, registry) => (w.setRegistry a registry).leaveFrame stack a handle result

/-- Drains a frame and leaves it. -/
def drain (w : World) (stack : Stack) (a : Nat) (handle : FrameHandle) (mode : ActionMode)
    (reason : ExitReason) : Running :=
  match Drain.start (w.registry a) handle mode reason with
  | .ok (d, registry) => w.proceed stack a handle (d.advance registry)
  | .error failure => w.leaveFrame stack a handle (.error failure)

/-- An action of a drain has ended. -/
def settleAction (w : World) (stack : Stack) (a : Nat) (d : Drain) (failure? : Option Failure) :
    Running :=
  w.proceed stack a d.handle (d.settle (w.registry a) failure?)

/-- The code in a frame has ended. -/
def leaveBody (w : World) (stack : Stack) (a : Nat) (handle : FrameHandle) (reason : ExitReason) :
    Running :=
  let stack := .scopeEnd :: stack
  match (w.registry a).hasAsyncActions handle with
  | .error failure => ⟨w, .raise failure, stack⟩
  | .ok true => ⟨w, .suspend (.drain a handle reason), stack⟩
  | .ok false => w.drain stack a handle .sync reason

/-- Registers a deferred action in the innermost frame of the activation. -/
def register (w : World) (node : Node) (scope : Nat) : Change Unit :=
  match node.children with
  | [] => (.error (.host .index), w)
  | body :: _ =>
    let a := w.scopes.activation scope
    let registry := w.registry a
    let action : Action Deferred :=
      { body := { body, scope }
        kind := if body.kind = .block then .block else .statement
        mode := if node.isAsync then .async else .sync
        span := node.span
        transfers := body.escapingTransfers node.isAsync }
    match registry.innermost? with
    | none => (.error (.host .attribute), w)
    | some handle =>
      w.change (registry.register handle action) fun w registry => ((), w.setRegistry a registry)

end World

end ScopeExit.Script
