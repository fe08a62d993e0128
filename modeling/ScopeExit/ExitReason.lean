import ScopeExit.Failure
/-!
Exit reasons: why control leaves a scope.

The same value is the completion of a statement.  One value flows from the statement that causes an
exit through the drain of every frame on the way to the construct that consumes it.
-/
namespace ScopeExit

/-- The kinds of exits. -/
inductive ExitKind where
  | normal | iterationEnd | return | throw | break | continue
  deriving DecidableEq

namespace ExitKind

/-- The name of a kind of exit. -/
def name : ExitKind → String
  | .normal => "normal"
  | .iterationEnd => "iteration_end"
  | .return => "return"
  | .throw => "throw"
  | .break => "break"
  | .continue => "continue"

/-- All kinds of exits. -/
def all : List ExitKind := [.normal, .iterationEnd, .return, .throw, .break, .continue]

/-- The kind of exit of a name. -/
def ofName? (s : String) : Option ExitKind := all.find? fun k => k.name == s

end ExitKind

/-- Why control leaves a scope. -/
inductive ExitReason where
  /-- The end of the scope is reached. -/
  | normal
  /-- The end of a pass through a loop body is reached. -/
  | iterationEnd
  | returning (value : Value)
  /-- A failure propagates; it may be unknown. -/
  | throwing (error : Option Failure)
  | breaking (label : Option Text)
  | continuing (label : Option Text)

namespace ExitReason

/-- The kind of an exit. -/
def kind : ExitReason → ExitKind
  | .normal => .normal
  | .iterationEnd => .iterationEnd
  | .returning _ => .return
  | .throwing _ => .throw
  | .breaking _ => .break
  | .continuing _ => .continue

/-- The label that a jump names. -/
def label? : ExitReason → Option Text
  | .breaking label | .continuing label => label
  | _ => none

/-- The failure that propagates. -/
def error? : ExitReason → Option Failure
  | .throwing error => error
  | _ => none

/-- A propagating failure. -/
def isThrow (r : ExitReason) : Bool := r.kind == .throw

/-- An exit that skips what follows the statement. -/
def isAbrupt : ExitReason → Bool
  | .normal | .iterationEnd => false
  | _ => true

/-- A jump is aimed at a construct that carries the labels. -/
def targets (r : ExitReason) (labels : List Text) : Bool :=
  match r.label? with
  | none => true
  | some label => labels.contains label

/-- A break that the construct with the labels consumes. -/
def isBreakOf (r : ExitReason) (labels : List Text) : Bool :=
  r.kind == .break && r.targets labels

end ExitReason

end ScopeExit
