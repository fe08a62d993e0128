import ScopeExit.Failure
/-!
The transfers of control by which a deferred body would leave its action.

A body may jump inside itself, so a jump counts only if its target is not part of the body.  The scan
does not look into functions, which jump on their own, nor into deferred actions, which are scanned
on their own; an asynchronous action inside a synchronous one counts as an `await`.
-/
namespace ScopeExit.Node

/-- What surrounds a node inside the scanned body. -/
structure Surroundings where
  /-- The labels of the statements around the node. -/
  labels : List Text := []
  /-- A loop is around the node. -/
  inLoop : Bool := false
  /-- A loop or a switch is around the node. -/
  inBreakable : Bool := false

/-- What surrounds the children of a node. -/
def Surroundings.enter (s : Surroundings) (kind : NodeKind) (label : Option Text) : Surroundings :=
  if kind = .labeled then { s with labels := label.toList ++ s.labels }
  else if kind.isLoop then { s with inLoop := true, inBreakable := true }
  else if kind = .switch then { s with inBreakable := true }
  else s

/-- A jump whose target is not around it. -/
def Surroundings.escapes (s : Surroundings) (hasTarget : Bool) (label : Option Text) : Bool :=
  match label with
  | none => !hasTarget
  | some l => !s.labels.contains l

/-- The transfer that a node makes by itself. -/
def ownTransfer (isAsync : Bool) (s : Surroundings) (kind : NodeKind) (label : Option Text) :
    List Transfer :=
  match kind with
  | .return => [.return]
  | .yield => [.yield]
  | .await => if isAsync then [] else [.await]
  | .break => if s.escapes s.inBreakable label then [.break] else []
  | .continue => if s.escapes s.inLoop label then [.continue] else []
  | _ => []

mutual

/-- The transfers out of the scanned body that a subtree makes, in the order of the source. -/
def transfersIn (isAsync : Bool) : Surroundings → Node → List Transfer
  | s, ⟨kind, _, label, _, children, nodeAsync, _, _, _⟩ =>
    if kind.isFunction then []
    else if kind = .defer then if nodeAsync && !isAsync then [.await] else []
    else
      ownTransfer isAsync s kind label ++
        transfersInAll isAsync (s.enter kind label) children

/-- The transfers that several subtrees make. -/
def transfersInAll (isAsync : Bool) : Surroundings → List Node → List Transfer
  | _, [] => []
  | s, n :: ns => transfersIn isAsync s n ++ transfersInAll isAsync s ns

end

/-- The transfers by which a body would leave a deferred action, each once, in the order of names. -/
def escapingTransfers (body : Node) (isAsync : Bool) : List Transfer :=
  Transfer.all.filter (transfersIn isAsync {} body).contains

end ScopeExit.Node
